import RfcMcp.Audit.Trail
import RfcMcp.Errors.Calls
import RfcMcp.Python.Dict
import RfcMcp.Runtime.Does

namespace RfcMcp

open Framework Framework.System

variable {cfg : AppSettings} {t : ℕ} {f : String}

section Operations

/-- What an operation of these areas comes to depends on the state and on the clock only. -/
theorem determined_of_area {o : Op} (ho : o.area ∈ [Area.lock, .clock, .expiry, .giveBack, .log]) :
    Determined (server cfg) (trail cfg f) t o := by
  intro s ch ch' v v' d d' hperform hperform' hagree
  have hdoes := Shared.perform_does hperform
  have hdoes' := Shared.perform_does hperform'
  cases hdoes with
  | tryAcquired hfree =>
    cases hdoes' with
    | tryAcquired _ => exact ⟨rfl, rfl⟩
    | tryFailed htaken => exact absurd hfree htaken
  | tryFailed htaken =>
    cases hdoes' with
    | tryAcquired hfree => exact absurd hfree htaken
    | tryFailed _ => exact ⟨rfl, rfl⟩
  | expired hactive hold =>
    cases hdoes' with
    | expired _ _ => exact ⟨rfl, rfl⟩
    | notExpired hnot =>
      cases hnot with
      | inl hnot => exact absurd hactive hnot
      | inr hnot => exact absurd hold (Int.not_lt.mpr hnot)
  | notExpired hnot =>
    cases hdoes' with
    | expired hactive hold =>
      cases hnot with
      | inl hnot => exact absurd hactive hnot
      | inr hnot => exact absurd hold (Int.not_lt.mpr hnot)
    | notExpired _ => exact ⟨rfl, rfl⟩
  | @monotonic now _ =>
    cases hdoes' with
    | monotonic _ =>
      have hclock : now = v' := Agree.head (hagree .clock)
      rw [hclock]
      exact ⟨rfl, rfl⟩
  | _ => cases hdoes' <;> first | exact ⟨rfl, rfl⟩ | simp [Op.area] at ho

def silentAreas : List Area := [.lock, .borrow, .giveBack, .cache, .rfc]

theorem silent_inputs {o : Op} (ho : o.area ∈ silentAreas) (i : Source) (v : o.Res) :
    o.inputs i v = [] := by
  cases i <;> cases o <;> first | rfl | simp [Op.area, silentAreas] at ho

theorem silent_records {o : Op} (ho : o.area ∈ silentAreas) : o.records = [] := by
  cases o <;> first | rfl | simp [Op.area, silentAreas] at ho

theorem silent_table {s s' : Shared} {o : Op} {v : o.Res} (hdoes : Does cfg t s o v s')
    (ho : o.area ∈ silentAreas) : s'.table = s.table := by
  cases hdoes <;> first | rfl | simp [Op.area, silentAreas] at ho

end Operations

section Segments

variable {α : Type} {s s' : Shared} {trace : Trace Effects} {r : Except PyExc α}

/-- A run gets no inputs, logs these records and does not touch the table. -/
structure Logs (cfg : AppSettings) (f : String) (s : Shared) (trace : Trace Effects)
    (records : List LogRecord) (s' : Shared) : Prop where
  inputs : ∀ i, (trail cfg f).inputsOf i trace = []
  outputs : (trail cfg f).outputsOf trace = records
  table : s'.table = s.table

theorem Logs.append {trace' : Trace Effects} {records records' : List LogRecord} {s₁ : Shared}
    (h : Logs cfg f s trace records s₁) (h' : Logs cfg f s₁ trace' records' s') :
    Logs cfg f s (trace ++ trace') (records ++ records') s' := by
  refine ⟨fun i => ?_, ?_, h'.table.trans h.table⟩
  · rw [Pairing.inputsOf_append, h.inputs i, h'.inputs i]
    rfl
  · rw [Pairing.outputsOf_append, h.outputs, h'.outputs]

theorem Logs.matches {trace' : Trace Effects} {records : List LogRecord} {s₁ s₁' : Shared}
    (h : Logs cfg f s trace records s') (h' : Logs cfg f s₁ trace' records s₁') :
    (trail cfg f).Matches trace trace' :=
  ⟨fun i => by rw [h.inputs i, h'.inputs i], by rw [h.outputs, h'.outputs]⟩

theorem traceless {x : Act α} (hx : Within silentAreas x) (h : Program.Replays x trace r) :
    (∀ i, (trail cfg f).inputsOf i trace = []) ∧ (trail cfg f).outputsOf trace = [] := by
  have harea := h.only hx.area
  constructor
  · intro i
    exact List.flatMap_eq_nil_iff.mpr fun did hdid => silent_inputs (harea did hdid) i did.2
  · exact List.flatMap_eq_nil_iff.mpr fun did hdid => silent_records (harea did hdid)

theorem matches_traceless {x : Act α} {trace' : Trace Effects} {r' : Except PyExc α}
    (hx : Within silentAreas x) (h : Program.Replays x trace r)
    (h' : Program.Replays x trace' r') : (trail cfg f).Matches trace trace' := by
  obtain ⟨hinputs, houtputs⟩ := @traceless cfg f _ _ _ _ hx h
  obtain ⟨hinputs', houtputs'⟩ := @traceless cfg f _ _ _ _ hx h'
  exact ⟨fun i => by rw [hinputs i, hinputs' i], by rw [houtputs, houtputs']⟩

theorem logs_silent {x : Act α} (hx : Within silentAreas x)
    (hrun : Runs (server cfg) t s x trace r s') : Logs cfg f s trace [] s' := by
  obtain ⟨hinputs, houtputs⟩ := @traceless cfg f _ _ _ _ hx hrun.replays
  refine ⟨hinputs, houtputs, ?_⟩
  refine hrun.frame (R := fun s s' : Shared => s'.table = s.table) hx.area (fun _ => rfl)
    (fun h h' => h'.trans h) ?_
  intro o ch s v s' ho hperform
  exact silent_table (Shared.perform_does hperform) ho

theorem logs_log {record : LogRecord} {r : Except PyExc Unit}
    (hrun : Runs (server cfg) t s (log record) trace r s') : Logs cfg f s trace [record] s' := by
  obtain ⟨_, _, rfl, rfl, hperform⟩ := runs_perform hrun
  have hdoes := Shared.perform_does hperform
  cases hdoes
  exact ⟨fun i => by cases i <;> rfl, rfl, rfl⟩

/-- The runs of an RFC. -/
theorem call_runs {conn : Conn} {p : Purpose} {function : String} {kwargs : PyDict}
    {r : Except PyExc PyDict}
    (hrun : Runs (server cfg) t s (conn.call p function kwargs) trace r s') :
    trace = [⟨.rfcBegin conn p function kwargs, ()⟩, ⟨.rfcEnd conn function kwargs, r⟩] ∧
      s' = s := by
  obtain ⟨first, _, s₁, second, rfl, hbegin, hrest⟩ := runs_bind hrun
  obtain ⟨_, _, rfl, rfl, hperform⟩ := runs_perform hbegin
  have hstate := Shared.perform_does hperform
  cases hstate
  obtain ⟨first, _, s₁, last, rfl, hend, hlast⟩ := runs_bind hrest
  obtain ⟨result, _, rfl, rfl, hperform'⟩ := runs_perform hend
  have hstate := Shared.perform_does hperform'
  cases hstate
  obtain ⟨rfl, rfl, rfl⟩ := runs_ret hlast
  exact ⟨rfl, rfl⟩

def succeeded (f mode : String) (id : Option TxId) : LogRecord :=
  ExecutionInvoker.info "CALL SUCCEEDED function=%s mode=%s transaction_id=%s"
    [f, mode, id.getD "None"]

theorem logs_callOnConnection {conn : Conn} {p : Purpose} {function mode : String}
    {kwargs v : PyDict} {id : Option TxId} (hp : (Op.rfcBegin conn p function kwargs).area = .rfc)
    (hrun : Runs (server cfg) t s
      (ExecutionInvoker.callOnConnection cfg conn p function kwargs mode id) trace (.ok v) s') :
    Logs cfg f s trace [succeeded function mode id] s' := by
  obtain ⟨first, result, s₁, second, rfl, hcall, hrest⟩ := runs_ok hrun
  have hfirst : Logs cfg f s first [] s₁ := by
    obtain ⟨calls, outcome, s₂, handled, rfl, hissued, hhandled⟩ := runs_bind hcall
    have hcalls := logs_silent (f := f) ((within_call hp).mono rfl) hissued
    cases outcome with
    | ok _ =>
      obtain ⟨rfl, _, rfl⟩ := runs_ret hhandled
      rw [List.append_nil]
      exact hcalls
    | error exc =>
      obtain ⟨_, _, _, _, _, _, hraised⟩ := runs_ok hhandled
      obtain ⟨_, hnever, _⟩ := runs_ret hraised
      cases hnever
  obtain ⟨logged, _, s₂, last, rfl, hlog, hlast⟩ := runs_ok hrest
  obtain ⟨rfl, _, rfl⟩ := runs_ret hlast
  rw [List.append_nil]
  exact hfirst.append (logs_log hlog)

/-- If the RFC returns normally, nothing is raised after it. -/
theorem returned_callOnConnection {conn : Conn} {p : Purpose} {mode : String} {kwargs : PyDict}
    {id : Option TxId} {r : Except PyExc PyDict}
    (h : Program.Replays (ExecutionInvoker.callOnConnection cfg conn p f kwargs mode id) trace r)
    (hreturns : ∀ r', Program.Passes (ExecutionInvoker.callOnConnection cfg conn p f kwargs mode id)
      trace (conn.call p f kwargs) r' → ∃ v, r' = .ok v) : ∃ v, r = .ok v ∧
    Program.Passes (ExecutionInvoker.callOnConnection cfg conn p f kwargs mode id) trace
      (conn.call p f kwargs) (.ok v) := by
  obtain ⟨outcome, first, logged, rfl, htried, hlogged⟩ := replays_program_bind h
  obtain ⟨result, calls, handled, rfl, hcall, hhandled⟩ := replays_program_bind htried
  have hpasses : Program.Passes (ExecutionInvoker.callOnConnection cfg conn p f kwargs mode id)
      ((calls ++ handled) ++ logged) (conn.call p f kwargs) result :=
    (hcall.passes.front _ handled).front _ logged
  obtain ⟨v, rfl⟩ := hreturns result hpasses
  cases hhandled
  cases hlogged with
  | call hend =>
    cases hend
    exact ⟨v, rfl, hpasses⟩

theorem logs_readRfc {function : String} {kwargs v : PyDict}
    (hrun : Runs (server cfg) t s (readRfc cfg function kwargs) trace (.ok v) s') :
    Logs cfg f s trace [succeeded function "read" none] s' := by
  obtain ⟨first, conn, s₁, rest, rfl, hcheckout, hrest⟩ := runs_ok hrun
  obtain ⟨second, result, s₂, third, rfl, hbody, hrelease⟩ := runs_ok hrest
  obtain ⟨calls, outcome, s₃, handled, rfl, hissued, hhandled⟩ := runs_bind hbody
  have hfirst := logs_silent (f := f) ((within_checkout cfg).mono rfl) hcheckout
  cases outcome with
  | ok _ =>
    obtain ⟨rfl, _, rfl⟩ := runs_ret hhandled
    have hcall := logs_callOnConnection (f := f) rfl hissued
    have hthird := logs_silent (f := f)
      (within_bind ((within_release conn true none).mono rfl) fun _ => within_pure _) hrelease
    rw [List.append_nil]
    exact hfirst.append (hcall.append hthird)
  | error exc =>
    obtain ⟨_, _, _, _, _, _, hraised⟩ := runs_ok hhandled
    obtain ⟨_, hnever, _⟩ := runs_ret hraised
    cases hnever

/-- A read has the result of its RFC, or it has got no connection for it. -/
theorem readRfc_replays {kwargs : PyDict} {r : Except PyExc PyDict}
    (h : Program.Replays (readRfc cfg f kwargs) trace r)
    (hreturns : RfcReturns f (readRfc cfg f kwargs) trace) :
    (∃ v, r = .ok v ∧ RfcEnds f (readRfc cfg f kwargs) trace (.ok v)) ∨
      ∃ exc, r = .error exc ∧ Program.Replays (ConnectionPool.checkout cfg) trace (.error exc) := by
  obtain ⟨borrowed, borrowing, rest, rfl, hcheckout, hrest⟩ := replays_program_bind h
  cases borrowed with
  | error exc =>
    cases hrest
    rw [List.append_nil]
    exact .inr ⟨exc, rfl, hcheckout⟩
  | ok conn =>
    obtain ⟨outcome, used, released, rfl, hbody, hreleased⟩ := replays_program_bind hrest
    obtain ⟨result, calls, handled, rfl, hissued, hhandled⟩ := replays_program_bind hbody
    have hpasses : ∀ r', Program.Passes
        (ExecutionInvoker.callOnConnection cfg conn .read f kwargs "read" none) calls
        (conn.call .read f kwargs) r' → Program.Passes (readRfc cfg f kwargs)
          (borrowing ++ ((calls ++ handled) ++ released)) (conn.call .read f kwargs) r' := by
      intro r' hr'
      refine Program.Passes.rest (a := .ok conn) ?_ hcheckout
      exact (hr'.front _ handled).front _ released
    obtain ⟨v, rfl, hv⟩ := returned_callOnConnection hissued
      fun r' hr' => hreturns r' (.read (hpasses r' hr'))
    cases hhandled
    obtain ⟨given, giving, last, rfl, hgiven, hlast⟩ := replays_program_bind hreleased
    obtain ⟨_, rfl⟩ := (silent_giveBack conn true none).returns hgiven
    cases hlast
    exact .inl ⟨v, rfl, .read (hpasses _ hv)⟩

end Segments

section Lockstep

variable {α : Type}

def sweepAreas : List Area := [.lock, .clock, .expiry, .giveBack, .log]

theorem lockstep_within {x : Act α} (hx : Within sweepAreas x) :
    Lockstep (server cfg) (trail cfg f) t x :=
  lockstep_only (fun _ ho => determined_of_area ho) hx.area

theorem lockstep_rollback (e : Entry) : Lockstep (server cfg) (trail cfg f) t
    (Transaction.rollback e.2.connection (.expire e)) := by
  intro s s' trace trace' r r' d d' hpre hrun hrun' _ hsame
  have hr := hsame.rollback e r r' hrun.replays.passes hrun'.replays.passes
  obtain ⟨rfl, rfl⟩ := call_runs hrun
  obtain ⟨rfl, rfl⟩ := call_runs hrun'
  subst hr
  exact ⟨⟨fun i => by cases i <;> rfl, rfl⟩, rfl, hpre⟩

theorem lockstep_expireLocked (cutoff : Time) (e : Entry) :
    Lockstep (server cfg) (trail cfg f) t
      (ExecutionInvoker.expireLocked (connectionPool cfg) cutoff e) := by
  have hremove : Within sweepAreas
      (withLock .transactions (perform (.removeIfExpired e.1 e.2 cutoff))) :=
    within_withLock rfl (within_op rfl)
  have hrelease : ∀ reusable, Within sweepAreas (do
      (connectionPool cfg).release e.2.connection reusable (some e)
      log (ExecutionInvoker.warning "TRANSACTION EXPIRED transaction_id=%s" [e.1])) :=
    fun reusable => within_bind ((within_poolRelease cfg _ _ _).mono rfl) fun _ => within_log rfl
  refine lockstep_bind (lockstep_within hremove) fun removed => ?_
  cases removed with
  | false => exact lockstep_ret _
  | true =>
    refine lockstep_bind (lockstep_tryExcept ?_ fun exc => ?_) fun reusable =>
      lockstep_within (hrelease reusable)
    · exact lockstep_bind (lockstep_rollback e) fun _ => lockstep_ret _
    · exact lockstep_within (within_bind (within_log rfl) fun _ => within_pure _)

theorem lockstep_expireTransactions : Lockstep (server cfg) (trail cfg f) t
    (ExecutionInvoker.expireTransactions cfg (connectionPool cfg)) := by
  refine lockstep_bind (lockstep_within (within_op rfl)) fun now => ?_
  refine lockstep_bind (lockstep_within (within_withLock rfl (within_op rfl))) fun candidates => ?_
  refine lockstep_forEach fun e => ?_
  refine lockstep_bind (lockstep_within (within_op rfl)) fun lastUsed => ?_
  split
  · exact lockstep_ret _
  · refine lockstep_bind (lockstep_within (within_op rfl)) fun locked => ?_
    cases locked with
    | false => exact lockstep_ret _
    | true =>
      exact lockstep_tryFinally (lockstep_expireLocked _ e) (lockstep_within (within_op rfl))

end Lockstep

section Tables

variable {α β : Type}

/-- `ρ` relates the two transaction tables. -/
def OnTables (ρ : List Entry → List Entry → Prop) (s s' : Shared) : Prop := ρ s.table s'.table

/-- The rule for an operation that leaves the table alone and leaves no trail. -/
theorem twin_silent {ρ : List Entry → List Entry → Prop} {o o' : Op}
    (ho : o.area ∈ silentAreas) (ho' : o'.area ∈ silentAreas)
    {err : PyExc → PyExc → Shared → Shared → Prop} :
    Twin (Y := server cfg) (trail cfg f) t (OnTables ρ) (perform o) (perform o')
      (Both (fun _ _ => OnTables ρ) err) := by
  refine twin_perform fun s s' ch ch' v v' d d' hpre hperform hperform' _ => ?_
  refine ⟨fun i => ?_, ?_, ?_⟩
  · exact (silent_inputs ho i v).trans (silent_inputs ho' i v').symm
  · exact (silent_records ho).trans (silent_records ho').symm
  · have htable := silent_table (Shared.perform_does hperform) ho
    have htable' := silent_table (Shared.perform_does hperform') ho'
    unfold OnTables
    rw [htable, htable']
    exact hpre

theorem twin_log {pre : Shared → Shared → Prop} (record : LogRecord)
    {err : PyExc → PyExc → Shared → Shared → Prop} :
    Twin (Y := server cfg) (trail cfg f) t pre (log record) (log record)
      (Both (fun _ _ => pre) err) := by
  refine twin_perform fun s s' ch ch' v v' d d' hpre hperform hperform' _ => ?_
  have hdoes := Shared.perform_does hperform
  have hdoes' := Shared.perform_does hperform'
  cases hdoes
  cases hdoes'
  exact ⟨fun _ => rfl, rfl, hpre⟩

theorem twin_monotonic {pre : Shared → Shared → Prop}
    {err : PyExc → PyExc → Shared → Shared → Prop} :
    Twin (Y := server cfg) (trail cfg f) t pre (perform .monotonic) (perform .monotonic)
      (Both (fun _ _ => OnTables fun _ _ => True) err) := by
  refine twin_perform fun s s' ch ch' now now' d d' _ _ _ hagree => ?_
  have hnow := Agree.head (hagree .clock)
  refine ⟨fun i => ?_, rfl, trivial⟩
  cases i with
  | clock => exact congrArg (fun now : Time => [now]) hnow
  | token => rfl

theorem twin_setLastUsed {pre : Shared → Shared → Prop} {a a' : ActiveTransaction} {now now' : Time}
    {err : PyExc → PyExc → Shared → Shared → Prop} :
    Twin (Y := server cfg) (trail cfg f) t pre (perform (.setLastUsed a now))
      (perform (.setLastUsed a' now')) (Both (fun _ _ => OnTables fun _ _ => True) err) := by
  refine twin_perform fun s s' ch ch' v v' d d' _ _ _ _ => ?_
  exact ⟨fun i => by cases i <;> rfl, rfl, trivial⟩

theorem twin_withLock {ρ : List Entry → List Entry → Prop} {l l' : LockId} {x : Act α} {y : Act β}
    {ok : α → β → List Entry → List Entry → Prop}
    {err : PyExc → PyExc → List Entry → List Entry → Prop}
    (hx : Twin (Y := server cfg) (trail cfg f) t (OnTables ρ) x y
      (Both (fun a b => OnTables (ok a b)) fun e e' => OnTables (err e e'))) :
    Twin (Y := server cfg) (trail cfg f) t (OnTables ρ) (withLock l x) (withLock l' y)
      (Both (fun a b => OnTables (ok a b)) fun e e' => OnTables (err e e')) := by
  have hacquire : Twin (Y := server cfg) (trail cfg f) t (OnTables ρ) (perform (.acquire l))
      (perform (.acquire l'))
      (Both (fun _ _ => OnTables ρ) fun e e' => OnTables (err e e')) :=
    twin_silent List.mem_cons_self List.mem_cons_self
  refine twin_bind hacquire fun _ _ => ?_
  refine twin_tryFinally hx (fun _ _ => ?_) fun _ _ => ?_
  · exact twin_silent List.mem_cons_self List.mem_cons_self
  · exact twin_silent List.mem_cons_self List.mem_cons_self

end Tables

section Values

variable {T : PyText} {parameters parameters' : PyDict}
  (hkeys : parameters.map (·.1) = parameters'.map (·.1))
include hkeys

theorem lastUpper_isNone (name : String) :
    (lastUpper T parameters name).isNone = (lastUpper T parameters' name).isNone := by
  have hkey : ∀ p : PyDict, (lastUpper T p name).map (·.1) =
      (p.map (·.1)).reverse.find? fun key => T.upper key == name := by
    intro p
    unfold lastUpper
    rw [← List.map_reverse, List.find?_map]
    rfl
  rw [← Option.isNone_map (f := (·.1)), hkey, hkeys, ← hkey, Option.isNone_map]

/-- Whether parameters are accepted depends on their names only, and so does the complaint. -/
theorem buildCallKwargs_keys (interface : FunctionInterface) :
    (∃ kwargs kwargs', buildCallKwargs T interface parameters = .ok kwargs ∧
      buildCallKwargs T interface parameters' = .ok kwargs') ∨
    ∃ exc, buildCallKwargs T interface parameters = .error exc ∧
      buildCallKwargs T interface parameters' = .error exc := by
  have hunknown : ∀ p : PyDict, (p.filter fun e =>
      !interface.parameters.any fun p => T.upper p.name == T.upper e.1).map (·.1) =
      (p.map (·.1)).filter fun key =>
        !interface.parameters.any fun p => T.upper p.name == T.upper key := by
    intro p
    rw [List.filter_map]
    rfl
  have hnames := (hunknown parameters).trans ((congrArg _ hkeys).trans (hunknown parameters').symm)
  have hempty := congrArg List.isEmpty hnames
  rw [List.isEmpty_map, List.isEmpty_map] at hempty
  unfold buildCallKwargs
  simp only [lastUpper_isNone hkeys, hnames, hempty]
  split
  · exact .inr ⟨_, rfl, rfl⟩
  split
  · exact .inr ⟨_, rfl, rfl⟩
  · exact .inl ⟨_, _, rfl, rfl⟩

end Values

section Reading

/-- Whatever the states are. -/
abbrev anyhow {α β : Type} : α → β → Shared → Shared → Prop := fun _ _ _ _ => True

theorem authorize_congr {mode : String} {parameters parameters' : PyDict}
    (h : ExecutionPolicy.genericTableReaderTarget cfg.text cfg.policy f parameters =
      ExecutionPolicy.genericTableReaderTarget cfg.text cfg.policy f parameters') :
    ExecutionPolicy.authorize cfg.text cfg.policy f mode parameters =
      ExecutionPolicy.authorize cfg.text cfg.policy f mode parameters' := by
  unfold ExecutionPolicy.authorize
  rw [h]

theorem twin_authorize {mode : String} {parameters parameters' : PyDict}
    (h : ExecutionPolicy.genericTableReaderTarget cfg.text cfg.policy f parameters =
      ExecutionPolicy.genericTableReaderTarget cfg.text cfg.policy f parameters') :
    Twin (Y := server cfg) (trail cfg f) t (· = ·)
      (ExecutionPolicy.authorize cfg.text cfg.policy f mode parameters)
      (ExecutionPolicy.authorize cfg.text cfg.policy f mode parameters')
      (Both (fun _ _ => OnTables (· = ·)) anyhow) := by
  rw [authorize_congr h]
  have hsame := @lockstep_within cfg t f _ _ ((within_authorize cfg f mode parameters').mono rfl)
  exact hsame.both.weaken (fun _ _ _ _ hpost => congrArg Shared.table hpost.2)
    fun _ _ _ _ _ => trivial

theorem twin_getInterface : Twin (Y := server cfg) (trail cfg f) t (OnTables (· = ·))
    (ExecutionInvoker.getInterface cfg (connectionPool cfg) f)
    (ExecutionInvoker.getInterface cfg (connectionPool cfg) f)
    (Both (fun i i' s s' => i = i' ∧ OnTables (· = ·) s s') anyhow) := by
  intro s s' trace trace' r r' d d' hpre hrun hrun' _ hsame
  have hr := hsame.lookup r r' hrun.replays.passes hrun'.replays.passes
  have hlogs := logs_silent (f := f) ((within_getInterface cfg f).mono rfl) hrun
  have hlogs' := logs_silent (f := f) ((within_getInterface cfg f).mono rfl) hrun'
  refine ⟨hlogs.matches hlogs', ?_⟩
  subst hr
  cases r with
  | ok interface =>
    refine ⟨rfl, ?_⟩
    have htables : s.table = s'.table := hpre
    show d.table = d'.table
    rw [hlogs.table, hlogs'.table, htables]
  | error exc => trivial

theorem twin_applyResultLimits {mode : String} {v v' : PyDict} {pre : Shared → Shared → Prop}
    (hverdict : SameVerdict cfg.limits v v') : Twin (Y := server cfg) (trail cfg f) t pre
      (ExecutionInvoker.applyResultLimits cfg f mode v)
      (ExecutionInvoker.applyResultLimits cfg f mode v')
      (Both (fun _ _ => pre) fun _ _ => pre) := by
  unfold ExecutionInvoker.applyResultLimits
  cases hverdict with
  | inl hboth =>
    obtain ⟨x, x', hx, hx'⟩ := hboth
    rw [hx, hx']
    exact twin_pure fun _ _ h => h
  | inr hneither =>
    obtain ⟨m, m', hm, hm'⟩ := hneither
    rw [hm, hm']
    exact twin_bind (twin_log _) fun _ _ => twin_raise fun _ _ h => h

theorem twin_readRfc (kwargs kwargs' : PyDict) {pre : Shared → Shared → Prop} :
    Twin (Y := server cfg) (trail cfg f) t pre (readRfc cfg f kwargs) (readRfc cfg f kwargs')
      (Both (fun v v' _ _ => SameVerdict cfg.limits v v' ∧ True) anyhow) := by
  intro s s' trace trace' r r' d d' _ hrun hrun' _ hsame
  have hborrowed := hsame.borrowed kwargs kwargs' r r' hrun.replays.passes hrun'.replays.passes
  rcases readRfc_replays hrun.replays hsame.returns with ⟨v, rfl, hv⟩ | ⟨exc, rfl, hnone⟩
  · rcases readRfc_replays hrun'.replays hsame.returns' with ⟨v', rfl, hv'⟩ | ⟨exc', rfl, _⟩
    · have hlogs := logs_readRfc (f := f) hrun
      have hlogs' := logs_readRfc (f := f) hrun'
      exact ⟨hlogs.matches hlogs', hsame.verdict v v' hv hv', trivial⟩
    · cases hborrowed
  · rcases readRfc_replays hrun'.replays hsame.returns' with ⟨v', rfl, _⟩ | ⟨exc', rfl, hnone'⟩
    · cases hborrowed
    · exact ⟨matches_traceless ((within_checkout cfg).mono rfl) hnone hnone', trivial⟩

variable {mode : String} {parameters parameters' : PyDict}
  (hkeys : parameters.map (·.1) = parameters'.map (·.1))
  (htarget : ExecutionPolicy.genericTableReaderTarget cfg.text cfg.policy f parameters =
    ExecutionPolicy.genericTableReaderTarget cfg.text cfg.policy f parameters')
include hkeys

/-- The arguments of the RFC differ, but whether they are accepted does not. -/
theorem twin_buildCallKwargs {interface : FunctionInterface} {pre : Shared → Shared → Prop} :
    Twin (Y := server cfg) (trail cfg f) t pre
      (Action.ofExcept (buildCallKwargs cfg.text interface parameters))
      (Action.ofExcept (buildCallKwargs cfg.text interface parameters'))
      (Both (fun _ _ => pre) anyhow) := by
  refine twin_ofExcept fun s s' hpre => ?_
  cases @buildCallKwargs_keys cfg.text parameters parameters' hkeys interface with
  | inl hboth =>
    obtain ⟨kwargs, kwargs', hok, hok'⟩ := hboth
    rw [hok, hok']
    exact hpre
  | inr hneither =>
    obtain ⟨exc, hexc, hexc'⟩ := hneither
    rw [hexc, hexc']
    trivial

include htarget

theorem twin_call : Twin (Y := server cfg) (trail cfg f) t (· = ·)
    (ExecutionInvoker.call cfg (connectionPool cfg) f parameters mode)
    (ExecutionInvoker.call cfg (connectionPool cfg) f parameters' mode)
    (Both anyhow anyhow) := by
  unfold ExecutionInvoker.call
  by_cases hmode : mode ≠ "read"
  · rw [if_pos hmode, if_pos hmode]
    exact twin_raise fun _ _ _ => trivial
  · rw [if_neg hmode, if_neg hmode]
    obtain rfl := not_not.mp hmode
    refine twin_bind (twin_authorize htarget) fun _ _ => ?_
    refine twin_bind twin_getInterface fun interface interface' => ?_
    refine twin_fact fun hsame => ?_
    subst hsame
    refine twin_bind (twin_buildCallKwargs hkeys) fun kwargs kwargs' => ?_
    refine twin_bind (twin_readRfc kwargs kwargs') fun v v' => ?_
    refine twin_fact fun hverdict => ?_
    exact (twin_applyResultLimits hverdict).weaken (fun _ _ _ _ _ => trivial)
      fun _ _ _ _ _ => trivial

end Reading

section Writing

/-- Each run has its transaction registered, under one ID. -/
def Registered (e e' : Entry) (table table' : List Entry) : Prop :=
  e.1 = e'.1 ∧ table.lookup e.1 = some e.2 ∧ table'.lookup e'.1 = some e'.2

theorem twin_findTransaction (id : TxId) : Twin (Y := server cfg) (trail cfg f) t
    (OnTables (· = ·)) (ExecutionInvoker.findTransaction cfg id)
    (ExecutionInvoker.findTransaction cfg id)
    (Both (fun e e' => OnTables (Registered e e')) anyhow) := by
  have hlookup : Twin (Y := server cfg) (trail cfg f) t (OnTables (· = ·))
      (perform (.lookup id)) (perform (.lookup id))
      (Both (fun a a' => OnTables fun table table' => a = a' ∧ table = table' ∧
        table.lookup id = a) fun _ _ => OnTables fun _ _ => True) := by
    refine twin_perform fun s s' ch ch' a a' d d' hpre hperform hperform' _ => ?_
    have hdoes := Shared.perform_does hperform
    have hdoes' := Shared.perform_does hperform'
    have htables : s.table = s'.table := hpre
    cases hdoes
    cases hdoes'
    exact ⟨fun i => by cases i <;> rfl, rfl, congrArg (List.lookup id) htables, htables, rfl⟩
  have hlocked : Twin (Y := server cfg) (trail cfg f) t (OnTables (· = ·))
      (withLock .transactions (perform (.lookup id)))
      (withLock .transactions (perform (.lookup id)))
      (Both (fun a a' s s' => a = a' ∧ OnTables (fun table table' => table = table' ∧
        table.lookup id = a) s s') anyhow) := twin_withLock hlookup
  unfold ExecutionInvoker.findTransaction
  refine twin_bind hlocked fun a a' => twin_fact fun hsame => ?_
  subst hsame
  cases a with
  | none => exact twin_raise fun _ _ _ => trivial
  | some a =>
    refine twin_pure fun s s' hpre => ?_
    obtain ⟨htables, hactive⟩ := hpre
    exact ⟨rfl, hactive, htables ▸ hactive⟩

def started (id : TxId) : LogRecord :=
  ExecutionInvoker.info "TRANSACTION STARTED transaction_id=%s" [id]

/-- What a new transaction leaves in the trail, and its registration. -/
theorem create_runs {s s' : Shared} {trace : Trace Effects} {e : Entry}
    (hrun : Runs (server cfg) t s (ExecutionInvoker.createTransaction (connectionPool cfg)) trace
      (.ok e) s') :
    (∃ now, (trail cfg f).inputsOf .clock trace = [now]) ∧
      (trail cfg f).inputsOf .token trace = [e.1] ∧
      (trail cfg f).outputsOf trace = [started e.1] ∧ s'.table.lookup e.1 = some e.2 := by
  obtain ⟨borrowed, conn, s₁, drawn, rfl, hcheckout, hdrawn⟩ := runs_ok hrun
  have hborrowed := logs_silent (f := f) ((within_checkout cfg).mono rfl) hcheckout
  obtain ⟨id, _, s₂, timed, rfl, _, htimed⟩ := runs_next hdrawn
  obtain ⟨now, _, s₃, made, rfl, _, hmade⟩ := runs_next htimed
  obtain ⟨ref, _, s₄, entered, rfl, _, hentered⟩ := runs_next hmade
  obtain ⟨locked, _, s₅, last, rfl, hlocked, hlast⟩ := runs_ok hentered
  obtain ⟨logged, _, s₆, rest, rfl, hlog, hend⟩ := runs_ok hlast
  obtain ⟨rfl, he, rfl⟩ := runs_ret hend
  cases he
  have hlogged := logs_log (f := f) hlog
  obtain ⟨_, _, s₇, inside, rfl, _, hinside⟩ := runs_next hlocked
  obtain ⟨_, registered, s₈, outside, rfl, hregister, houtside⟩ := runs_bind hinside
  obtain ⟨_, _, rfl, rfl, hperform⟩ := runs_perform hregister
  obtain ⟨_, released, s₉, rest, rfl, hrelease, hend⟩ := runs_bind houtside
  obtain ⟨_, _, rfl, rfl, hperform'⟩ := runs_perform hrelease
  obtain ⟨rfl, _, rfl⟩ := runs_ret hend
  have hdoes := Shared.perform_does hperform
  have hdoes' := Shared.perform_does hperform'
  have htable : s'.table = PyDict.set s₇.table id ⟨ref, conn⟩ := by
    rw [hlogged.table]
    cases hdoes'
    cases hdoes
    rfl
  have hinputs : ∀ i mid, (trail cfg f).inputsOf i (borrowed ++ (mid ++ (logged ++ []))) =
      (trail cfg f).inputsOf i mid := by
    intro i mid
    rw [List.append_nil, Pairing.inputsOf_append, Pairing.inputsOf_append, hborrowed.inputs,
      hlogged.inputs, List.nil_append, List.append_nil]
  have houtputs : ∀ mid, (trail cfg f).outputsOf (borrowed ++ (mid ++ (logged ++ []))) =
      (trail cfg f).outputsOf mid ++ [started id] := by
    intro mid
    rw [List.append_nil, Pairing.outputsOf_append, Pairing.outputsOf_append, hborrowed.outputs,
      hlogged.outputs, List.nil_append]
    rfl
  let mid : Trace Effects := [⟨.tokenUrlsafe, id⟩, ⟨.monotonic, now⟩,
    ⟨.newTransaction conn now, ref⟩, ⟨.acquire .transactions, ()⟩,
    ⟨.register id ⟨ref, conn⟩, ()⟩, ⟨.release .transactions, ()⟩]
  exact ⟨⟨now, hinputs .clock mid⟩, hinputs .token mid, houtputs mid, htable ▸ lookup_set⟩

/-- A transaction is not created only for lack of a connection. -/
theorem notCreated_replays {trace : Trace Effects} {exc : PyExc}
    (h : Program.Replays (ExecutionInvoker.createTransaction (connectionPool cfg)) trace
      (.error exc)) : Program.Replays (ConnectionPool.checkout cfg) trace (.error exc) := by
  obtain ⟨borrowed, borrowing, rest, rfl, hcheckout, hrest⟩ := replays_program_bind h
  cases borrowed with
  | error exc =>
    cases hrest
    rw [List.append_nil]
    exact hcheckout
  | ok conn =>
    have hsilent : Silent (do
        let id ← perform .tokenUrlsafe
        let now ← perform .monotonic
        let ref ← perform (.newTransaction conn now)
        let active : ActiveTransaction := ⟨ref, conn⟩
        withLock .transactions (perform (.register id active))
        log (ExecutionInvoker.info "TRANSACTION STARTED transaction_id=%s" [id])
        pure (id, active) : Act Entry) :=
      silent_bind (silent_operation _) fun id => silent_bind (silent_operation _) fun now =>
        silent_bind (silent_operation _) fun ref => silent_bind (silent_section _ _) fun _ =>
          silent_bind (silent_log _) fun _ => silent_pure
    obtain ⟨_, hnever⟩ := hsilent.returns hrest
    cases hnever

theorem twin_createTransaction : Twin (Y := server cfg) (trail cfg f) t (OnTables (· = ·))
    (ExecutionInvoker.createTransaction (connectionPool cfg))
    (ExecutionInvoker.createTransaction (connectionPool cfg))
    (Both (fun e e' => OnTables (Registered e e')) anyhow) := by
  intro s s' trace trace' r r' d d' _ hrun hrun' hagree hsame
  have hcreated := hsame.created r r' hrun.replays.passes hrun'.replays.passes
  cases r with
  | error exc =>
    cases r' with
    | ok e' => cases hcreated
    | error exc' =>
      have hnone := notCreated_replays hrun.replays
      have hnone' := notCreated_replays hrun'.replays
      exact ⟨matches_traceless ((within_checkout cfg).mono rfl) hnone hnone', trivial⟩
  | ok e =>
  cases r' with
  | error exc' => cases hcreated
  | ok e' =>
  obtain ⟨⟨now, hclock⟩, htoken, houtputs, hactive⟩ := create_runs (f := f) hrun
  obtain ⟨⟨now', hclock'⟩, htoken', houtputs', hactive'⟩ := create_runs (f := f) hrun'
  have hagreeClock := hagree .clock
  have hagreeToken := hagree .token
  rw [hclock, hclock'] at hagreeClock
  rw [htoken, htoken'] at hagreeToken
  have hnow := hagreeClock.head
  have hid := hagreeToken.head
  refine ⟨⟨fun i => ?_, ?_⟩, hid, hactive, hactive'⟩
  · cases i with
    | clock => rw [hclock, hclock', hnow]
    | token => rw [htoken, htoken', hid]
  · rw [houtputs, houtputs', hid]

theorem twin_getOrCreateTransaction (id : Option TxId) : Twin (Y := server cfg) (trail cfg f) t
    (OnTables (· = ·)) (ExecutionInvoker.getOrCreateTransaction cfg (connectionPool cfg) id)
    (ExecutionInvoker.getOrCreateTransaction cfg (connectionPool cfg) id)
    (Both (fun e e' => OnTables (Registered e e')) anyhow) := by
  cases id with
  | some id => exact twin_findTransaction id
  | none => exact twin_createTransaction

variable {e e' : Entry}

theorem twin_removeIfCurrent : Twin (Y := server cfg) (trail cfg f) t
    (OnTables (Registered e e')) (ExecutionInvoker.removeIfCurrent e)
    (ExecutionInvoker.removeIfCurrent e')
    (Both (fun removed removed' s s' => (removed = true ∧ removed' = true) ∧
      OnTables (fun _ _ => True) s s') anyhow) := by
  have hremove : Twin (Y := server cfg) (trail cfg f) t (OnTables (Registered e e'))
      (perform (.removeIfCurrent e.1 e.2)) (perform (.removeIfCurrent e'.1 e'.2))
      (Both (fun removed removed' => OnTables fun _ _ => (removed = true ∧ removed' = true) ∧ True)
        fun _ _ => OnTables fun _ _ => True) := by
    refine twin_perform fun s s' ch ch' removed removed' d d' hpre hperform hperform' _ => ?_
    have hdoes := Shared.perform_does hperform
    have hdoes' := Shared.perform_does hperform'
    obtain ⟨_, hactive, hactive'⟩ := hpre
    cases hdoes with
    | notCurrent hnot => exact absurd hactive hnot
    | removed _ =>
      cases hdoes' with
      | notCurrent hnot => exact absurd hactive' hnot
      | removed _ => exact ⟨fun i => by cases i <;> rfl, rfl, ⟨rfl, rfl⟩, trivial⟩
  exact twin_withLock hremove

variable (hid : e.1 = e'.1)
include hid

theorem twin_writeRfc (kwargs kwargs' : PyDict) {err : PyExc → PyExc → Shared → Shared → Prop} :
    Twin (Y := server cfg) (trail cfg f) t
      (OnTables (Registered e e')) (writeRfc cfg f e kwargs) (writeRfc cfg f e' kwargs')
      (Both (fun v v' s s' => SameVerdict cfg.limits v v' ∧ OnTables (Registered e e') s s')
        err) := by
  intro s s' trace trace' r r' d d' hpre hrun hrun' _ hsame
  obtain ⟨v, rfl, hv⟩ := returned_callOnConnection hrun.replays fun r hr =>
    hsame.returns r (.written hr)
  obtain ⟨v', rfl, hv'⟩ := returned_callOnConnection hrun'.replays fun r hr =>
    hsame.returns' r (.written hr)
  have hlogs := logs_callOnConnection (f := f) rfl hrun
  have hlogs' := logs_callOnConnection (f := f) rfl hrun'
  rw [← hid] at hlogs'
  refine ⟨hlogs.matches hlogs', ?_, ?_⟩
  · exact hsame.verdict v v' (.written hv) (.written hv')
  · unfold OnTables
    rw [hlogs.table, hlogs'.table]
    exact hpre

theorem twin_isCurrentTransaction : Twin (Y := server cfg) (trail cfg f) t
    (OnTables (Registered e e')) (ExecutionInvoker.isCurrentTransaction e)
    (ExecutionInvoker.isCurrentTransaction e')
    (Both (fun current current' s s' => (current = true ∧ current' = true) ∧
      OnTables (Registered e e') s s') anyhow) := by
  have hcurrent : Twin (Y := server cfg) (trail cfg f) t (OnTables (Registered e e'))
      (perform (.isCurrent e.1 e.2)) (perform (.isCurrent e'.1 e'.2))
      (Both (fun current current' => OnTables fun table table' =>
        (current = true ∧ current' = true) ∧ Registered e e' table table')
        fun _ _ => OnTables fun _ _ => True) := by
    refine twin_perform fun s s' ch ch' current current' d d' hpre hperform hperform' _ => ?_
    have hdoes := Shared.perform_does hperform
    have hdoes' := Shared.perform_does hperform'
    obtain ⟨_, hactive, hactive'⟩ := hpre
    cases hdoes
    cases hdoes'
    exact ⟨fun i => by cases i <;> rfl, rfl,
      ⟨decide_eq_true hactive, decide_eq_true hactive'⟩, hid, hactive, hactive'⟩
  exact twin_withLock hcurrent

theorem twin_discardTransaction : Twin (Y := server cfg) (trail cfg f) t
    (OnTables (Registered e e'))
    (ExecutionInvoker.discardTransaction (connectionPool cfg) e)
    (ExecutionInvoker.discardTransaction (connectionPool cfg) e')
    (Both (fun _ _ => OnTables fun _ _ => True) anyhow) := by
  have hgiveBack : ∀ o o' : Op, o.area = .giveBack → o'.area = .giveBack →
      Twin (Y := server cfg) (trail cfg f) t (OnTables fun _ _ => True) (perform o) (perform o')
        (Both (fun _ _ => OnTables fun _ _ => True) anyhow) := by
    intro o o' ho ho'
    refine twin_silent ?_ ?_
    · rw [ho]
      decide
    · rw [ho']
      decide
  have hrelease : Twin (Y := server cfg) (trail cfg f) t (OnTables fun _ _ => True)
      (ConnectionPool.release e.2.connection false (some e))
      (ConnectionPool.release e'.2.connection false (some e'))
      (Both (fun _ _ => OnTables fun _ _ => True) anyhow) := by
    refine twin_bind (hgiveBack (.poolRelease _ _ _) (.poolRelease _ _ _) rfl rfl) fun _ _ => ?_
    refine twin_tryFinally (hgiveBack (.closeConnection _) (.closeConnection _) rfl rfl)
      (fun _ _ => ?_) fun _ _ => ?_
    · exact hgiveBack .semRelease .semRelease rfl rfl
    · exact hgiveBack .semRelease .semRelease rfl rfl
  unfold ExecutionInvoker.discardTransaction
  refine twin_bind twin_removeIfCurrent fun removed removed' => twin_fact fun hboth => ?_
  obtain ⟨rfl, rfl⟩ := hboth
  rw [if_pos rfl, if_pos rfl, hid]
  exact twin_bind hrelease fun _ _ => twin_log _

theorem twin_writeLocked (kwargs kwargs' : PyDict) : Twin (Y := server cfg) (trail cfg f) t
    (OnTables (Registered e e'))
    (ExecutionInvoker.writeLocked cfg (connectionPool cfg) f kwargs "write" e)
    (ExecutionInvoker.writeLocked cfg (connectionPool cfg) f kwargs' "write" e')
    (Both (fun _ _ => OnTables fun _ _ => True) fun _ _ => OnTables fun _ _ => True) := by
  unfold ExecutionInvoker.writeLocked
  refine twin_bind (twin_isCurrentTransaction hid) fun current current' => twin_fact fun hboth => ?_
  obtain ⟨rfl, rfl⟩ := hboth
  rw [if_neg (by simp), if_neg (by simp)]
  have hwritten : Twin (Y := server cfg) (trail cfg f) t (OnTables (Registered e e'))
      (do
        let result ← writeRfc cfg f e kwargs
        ExecutionInvoker.applyResultLimits cfg f "write" result : Act PyValue)
      (do
        let result ← writeRfc cfg f e' kwargs'
        ExecutionInvoker.applyResultLimits cfg f "write" result : Act PyValue)
      (Both (fun _ _ => OnTables (Registered e e')) fun _ _ => OnTables (Registered e e')) := by
    refine twin_bind (twin_writeRfc hid kwargs kwargs') fun v v' => twin_fact fun hverdict => ?_
    exact twin_applyResultLimits hverdict
  refine twin_bind (twin_tryExcept hwritten fun exc exc' => ?_) fun result result' => ?_
  · exact twin_bind (twin_discardTransaction hid) fun _ _ => twin_raise fun _ _ _ => trivial
  · refine twin_bind twin_monotonic fun now now' => ?_
    exact twin_bind twin_setLastUsed fun _ _ => twin_pure fun _ _ _ => trivial

end Writing

section Requests

variable {mode : String} {parameters parameters' : PyDict}
  (hkeys : parameters.map (·.1) = parameters'.map (·.1))
  (htarget : ExecutionPolicy.genericTableReaderTarget cfg.text cfg.policy f parameters =
    ExecutionPolicy.genericTableReaderTarget cfg.text cfg.policy f parameters')
include hkeys htarget

theorem twin_write (id : Option TxId) : Twin (Y := server cfg) (trail cfg f) t (· = ·)
    (ExecutionInvoker.write cfg (connectionPool cfg) f parameters id)
    (ExecutionInvoker.write cfg (connectionPool cfg) f parameters' id)
    (Both anyhow anyhow) := by
  unfold ExecutionInvoker.write
  refine twin_bind (twin_authorize htarget) fun _ _ => ?_
  refine twin_bind twin_getInterface fun interface interface' => twin_fact fun hsame => ?_
  subst hsame
  refine twin_bind (twin_buildCallKwargs hkeys) fun kwargs kwargs' => ?_
  refine twin_bind (twin_getOrCreateTransaction id) fun e e' => ?_
  by_cases hid : e.1 = e'.1
  · refine twin_bind (twin_withLock (twin_writeLocked hid kwargs kwargs')) fun _ _ => ?_
    exact twin_pure fun _ _ _ => trivial
  · intro s s' _ _ _ _ _ _ hpre
    exact absurd hpre.1 hid

theorem twin_callTransactional (id : Option TxId) :
    Twin (Y := server cfg) (trail cfg f) t (· = ·)
      (ExecutionInvoker.callTransactional cfg (connectionPool cfg) f parameters mode id)
      (ExecutionInvoker.callTransactional cfg (connectionPool cfg) f parameters' mode id)
      (Both anyhow anyhow) := by
  have hsweep : Twin (Y := server cfg) (trail cfg f) t (· = ·)
      (ExecutionInvoker.expireTransactions cfg (connectionPool cfg))
      (ExecutionInvoker.expireTransactions cfg (connectionPool cfg))
      (Both (fun _ _ => (· = ·)) anyhow) := by
    exact lockstep_expireTransactions.both.weaken (fun _ _ _ _ hpost => hpost.2)
      fun _ _ _ _ _ => trivial
  unfold ExecutionInvoker.callTransactional
  refine twin_bind hsweep fun _ _ => ?_
  by_cases hread : mode = "read"
  · rw [if_pos hread, if_pos hread]
    split
    · exact twin_raise fun _ _ _ => trivial
    · exact twin_bind (twin_call hkeys htarget) fun _ _ => twin_pure fun _ _ _ => trivial
  · rw [if_neg hread, if_neg hread]
    split
    · exact twin_raise fun _ _ _ => trivial
    · exact twin_write hkeys htarget id

end Requests

end RfcMcp
