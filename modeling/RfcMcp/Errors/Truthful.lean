import RfcMcp.Contracts.Informed
import RfcMcp.Custody.Ending
import RfcMcp.Errors.Classes
import RfcMcp.Errors.Transactions
import RfcMcp.Execution.Blanks
import RfcMcp.Framework.Solo

namespace RfcMcp

open Framework Framework.System ExecutionInvoker

section Moments

variable {cfg : AppSettings} {c b : Run cfg} {t : ℕ} {request : Request} {e : Entry}

/-- What thread `t` has done, it has done at some moment of the run. -/
theorem moment_of_mem {p : Program Effects (Except PyExc Answer)} {o : Op} {v : o.Res}
    (h : Reachable c) (hthread : c.threads[t]? = some (request, p))
    (hmem : ⟨o, v⟩ ∈ traceOf t c.history) :
    ∃ b : Run cfg, Reachable b ∧ Leads b c ∧ (∃ q, b.threads[t]? = some (request, q)) ∧
      ∃ s, Does cfg t b.shared o v s := by
  obtain ⟨later, earlier, hhistory⟩ := List.append_of_mem (mem_traceOf.mp hmem)
  obtain ⟨b, b', hb, hp, hlead, _, _⟩ := h.performed hhistory
  have hleads : Leads b c := .head (.run hp) hlead
  obtain ⟨hget, hperform⟩ := hp
  obtain ⟨q, hq⟩ := Leads.request hleads hget
  rw [hthread] at hq
  cases hq
  exact ⟨b, hb, hleads, ⟨_, hget⟩, _, Shared.perform_does hperform⟩

theorem mem_record_of_leads {pick : (o : Op) → o.Res → List Entry} (hlead : Leads b c)
    (he : e ∈ record pick b.history) : e ∈ record pick c.history := by
  obtain ⟨later, hlater⟩ := history_suffix hlead
  rw [← hlater, record_append]
  exact List.mem_append_right _ he

theorem registered_of_mem_table (h : Reachable c) (he : e ∈ c.shared.table) :
    e ∈ record Op.registers c.history := by
  have hw := hands_reachable (@program_follows cfg) h
  exact (mem_registers (@program_follows cfg) h).mpr ((Hands.open_iff hw).mpr (.inl he)).seen

theorem Does.lookup_eq {u : ℕ} {s s' : Shared} {id : TxId} {v : Option ActiveTransaction}
    (h : Does cfg u s (.lookup id) v s') : v = s.active id := by
  cases h
  rfl

/-- What has left the table has been taken out of it. -/
theorem removed_of_registered (h : Reachable c) (he : e ∈ record Op.registers c.history)
    (hnot : e ∉ c.shared.table) : e ∈ record Op.removes c.history := by
  have hseen := (mem_registers (@program_follows cfg) h).mp he
  have htable : ¬ 0 < c.shared.table.countP (isEntry e) := fun hpos =>
    hnot (countP_isEntry_pos.mp hpos)
  have hremoved := removes_all (@program_follows cfg) h (isEntry e)
  have hcount : (hands c).seenCount (isEntry e) = c.shared.table.countP (isEntry e) +
      (hands c).total (fun g : Custody => g.removed.countP (isEntry e)) +
      (hands c).total (fun g : Custody => g.released.countP (isEntry e)) := rfl
  unfold Hands.Seen at hseen
  have hpos : 0 < (record Op.removes c.history).countP (isEntry e) := by omega
  exact countP_isEntry_pos.mp hpos

/-- An ID is given to one transaction only. -/
theorem registered_unique (h : Reachable c) {e' : Entry} (he : e ∈ record Op.registers c.history)
    (he' : e' ∈ record Op.registers c.history) (hid : e.1 = e'.1) : e = e' :=
  Hands.id_unique (hands_reachable (@program_follows cfg) h)
    ((mem_registers (@program_follows cfg) h).mp he)
    ((mem_registers (@program_follows cfg) h).mp he') hid

theorem active_eq_none_iff {s : Shared} {id : TxId} :
    s.active id = none ↔ ∀ e ∈ s.table, e.1 ≠ id := by
  unfold Shared.active
  rw [List.lookup_eq_none_iff]
  refine forall_congr' fun e => forall_congr' fun _ => ?_
  rw [bne_iff_ne]
  exact ne_comm

end Moments

section NotOpen

variable {cfg : AppSettings} {c b : Run cfg} {t : ℕ} {request : Request} {id : TxId} {e : Entry}

/-- At some moment of the request no transaction was open under `id`: the ID had not been given
out, or its transaction had been ended, once and for all. -/
def NotOpen (c : Run cfg) (t : ℕ) (request : Request) (id : TxId) : Prop :=
  ∃ b, Leads b c ∧ (∃ p, b.threads[t]? = some (request, p)) ∧ b.shared.active id = none ∧
    ∀ e ∈ record Op.registers b.history, e.1 = id → e ∈ record Op.removes b.history ∧
      ∀ d, Leads b d → d.shared.active id = none

/-- What has been ended stays so. -/
theorem never_again (h : Reachable b) (hactive : b.shared.active id = none)
    (he : e ∈ record Op.registers b.history) (hid : e.1 = id) :
    e ∈ record Op.removes b.history ∧ ∀ d, Leads b d → d.shared.active id = none := by
  have hremoved : e ∈ record Op.removes b.history :=
    removed_of_registered h he fun hmem => active_eq_none_iff.mp hactive e hmem hid
  refine ⟨hremoved, fun d hlead => active_eq_none_iff.mpr fun e' he' hid' => ?_⟩
  have hd : Reachable d := h.leads hlead
  have hsame : e' = e := registered_unique hd (registered_of_mem_table hd he')
    (mem_record_of_leads hlead he) (hid'.trans hid.symm)
  rw [hsame] at he'
  exact (seen_of_mem_removes (@program_follows cfg) hd (mem_record_of_leads hlead hremoved)).2 he'

theorem notOpen_of_active {q : Program Effects (Except PyExc Answer)} (h : Reachable b)
    (hlead : Leads b c) (hget : b.threads[t]? = some (request, q))
    (hactive : b.shared.active id = none) : NotOpen c t request id :=
  ⟨b, hlead, ⟨q, hget⟩, hactive, fun _ he hid => never_again h hactive he hid⟩

theorem registered_of_obtained {p : Program Effects (Except PyExc Answer)} (h : Reachable c)
    (hthread : c.threads[t]? = some (request, p)) (he : request.Obtained e (traceOf t c.history)) :
    e ∈ record Op.registers c.history := by
  rcases he with ⟨_, hlookup⟩ | hregister
  · obtain ⟨b, hb, hlead, _, s, hdoes⟩ := moment_of_mem h hthread hlookup
    exact mem_record_of_leads hlead
      (registered_of_mem_table hb (lookup_mem (hdoes.lookup_some rfl)))
  · exact mem_record.mpr ⟨t, _, _, mem_traceOf.mp hregister, List.mem_singleton.mpr rfl⟩

/-- A transaction that is not current has been ended. -/
theorem notOpen_of_gone {p : Program Effects (Except PyExc Answer)} (h : Reachable c)
    (hthread : c.threads[t]? = some (request, p)) (he : request.Obtained e (traceOf t c.history))
    (hgone : ⟨Op.isCurrent e.1 e.2, false⟩ ∈ traceOf t c.history ∨
      ⟨Op.removeIfCurrent e.1 e.2, false⟩ ∈ traceOf t c.history) : NotOpen c t request e.1 := by
  have hmoment : ∃ b : Run cfg, Reachable b ∧ Leads b c ∧
      (∃ q, b.threads[t]? = some (request, q)) ∧ b.shared.active e.1 ≠ some e.2 := by
    rcases hgone with hcurrent | hremove
    · obtain ⟨b, hb, hlead, hget, s, hdoes⟩ := moment_of_mem h hthread hcurrent
      refine ⟨b, hb, hlead, hget, ?_⟩
      generalize hv : false = v at hdoes
      cases hdoes
      simpa using hv
    · obtain ⟨b, hb, hlead, hget, s, hdoes⟩ := moment_of_mem h hthread hremove
      refine ⟨b, hb, hlead, hget, ?_⟩
      cases hdoes with
      | notCurrent hne => exact hne
  obtain ⟨b, hb, hlead, ⟨q, hget⟩, hne⟩ := hmoment
  refine notOpen_of_active hb hlead hget ?_
  cases hactive : b.shared.active e.1 with
  | none => rfl
  | some a =>
    have hmem : (e.1, a) ∈ b.shared.table := lookup_mem hactive
    have hsame : (e.1, a) = e := registered_unique h
      (mem_record_of_leads hlead (registered_of_mem_table hb hmem))
      (registered_of_obtained h hthread he) rfl
    rw [← hsame] at hne
    exact absurd hactive hne

end NotOpen

section Contract

variable {T : PyText} {interface : FunctionInterface} {answer parameters : PyDict} {exc : PyExc}

/-- The parameters do not fit what SAP has answered about the function. -/
inductive Rejected (T : PyText) (answer parameters : PyDict) : Prop
  | unknown {e : String × PyValue} (he : e ∈ parameters)
      (h : ∀ p, Declares T answer p → T.upper p.name ≠ T.upper e.1)
  | missing {p : ParameterInfo} (hp : Declares T answer p) (h : MissingRequired T parameters p)

theorem rejected_of_error (hannounced : Announces T answer interface)
    (h : buildCallKwargs T interface parameters = .error exc) :
    (∃ message, exc = .parameterValidation message) ∧ Rejected T answer parameters := by
  unfold buildCallKwargs at h
  dsimp only at h
  split at h
  · rename_i hunknown
    cases h
    refine ⟨⟨_, rfl⟩, ?_⟩
    simp only [Bool.not_eq_true', List.isEmpty_eq_false_iff_exists_mem, List.mem_filter] at hunknown
    obtain ⟨e, he, hkey⟩ := hunknown
    refine .unknown he fun p hp hname => ?_
    obtain ⟨p', hp', rfl⟩ := hannounced.declares.mp hp
    simp only [List.any_eq_false, beq_iff_eq] at hkey
    exact hkey p' hp' hname
  · split at h
    · rename_i hmissing
      cases h
      refine ⟨⟨_, rfl⟩, ?_⟩
      simp only [Bool.not_eq_true', List.isEmpty_eq_false_iff_exists_mem, List.mem_filter]
        at hmissing
      obtain ⟨p, hp, hrequired⟩ := hmissing
      simp only [Bool.and_eq_true, decide_eq_true_eq, Bool.not_eq_true',
        Option.isNone_iff_eq_none, lastUpper_none] at hrequired
      obtain ⟨⟨⟨himport, hoptional⟩, hdefault⟩, hnone⟩ := hrequired
      exact .missing (hannounced.declares.mpr ⟨p, hp, rfl⟩)
        ⟨⟨himport, hoptional, hdefault⟩, hnone⟩
    · cases h

end Contract

section Truthful

variable {cfg : AppSettings} {c : Run cfg} {t : ℕ} {request : Request} {exc : PyExc}

/-- At some moment of the request every connection of the pool was with an open transaction or in
the hands of a request. -/
def Exhausted (c : Run cfg) (t : ℕ) (request : Request) : Prop :=
  ∃ b, Leads b c ∧ (∃ p, b.threads[t]? = some (request, p)) ∧ b.shared.permits = 0 ∧
    b.shared.table.length + (hands b).total Custody.permits = cfg.poolSize

/-- A result is over the limits. -/
def TooLarge (limits : ResultLimitPolicy) (value : PyValue) : Prop :=
  limits.maxTableRows < value.totalRows ∨
    ∃ text, jsonDumps value.safe = .ok text ∧ limits.maxSerializedBytes < text.utf8ByteSize

/-- The tool is misused, or SAP has answered something of the wrong form. -/
inductive WrongForm (cfg : AppSettings) (request : Request) (exc : PyExc) (trace : Trace Effects) :
    Prop
  | misused (h : Misused cfg.text request exc)
  | malformed {f : String} {kwargs raw : PyDict} (h : RfcEnded .discovery f kwargs (.ok raw) trace)
      (hexc : Malformed cfg.text raw exc f)
  | misread {f : String} {kwargs raw : PyDict} {value : PyValue}
      (h : RfcEnded .read f kwargs (.ok raw) trace)
      (hvalue : cfg.limits.apply (.dict raw) = .ok value) (hexc : Misread value exc)
  | unencodable {p : Purpose} {f : String} {kwargs raw : PyDict} (hp : p.isBusiness = true)
      (h : RfcEnded p f kwargs (.ok raw) trace)
      (hexc : jsonDumps (PyValue.dict raw).safe = .error exc)

/-- An error is what it says it is. -/
def Truthful (c : Run cfg) (t : ℕ) (request : Request) : PyExc → Prop
  | .policyDenied f mode _ =>
    (∃ parameters, request.AsksFor cfg.text f parameters ∧
      ExecutionPolicy.allows cfg.text cfg.policy f mode parameters = false) ∨
    (request.endsTransaction = true ∧ cfg.policy.mode ≠ .readWrite)
  | .parameterValidation _ => ∃ f parameters interface answer,
    request.AsksFor cfg.text f parameters ∧ Described c t f interface answer ∧
      Rejected cfg.text answer parameters
  | .resultLimitExceeded _ => ∃ p f kwargs raw, p.isBusiness = true ∧
    RfcEnded p f kwargs (.ok raw) (traceOf t c.history) ∧ TooLarge cfg.limits (.dict raw)
  | .transactionNotFound message => ∃ id,
    .transactionNotFound message = transactionNotFound cfg id ∧
    (request.names = some id ∨ ∃ a, .did t (.register id a) () ∈ c.history) ∧
    NotOpen c t request id
  | .sap .poolTimeout _ _ => Exhausted c t request
  | .sap .unavailable _ _ => cfg.pyrfcInstalled = false
  | .sap kind message key => ∃ cause, .sap kind message key = ExecutionInvoker.translate cfg cause ∧
    (.did t .openConnection (.error cause) ∈ c.history ∨ ∃ p f kwargs, p.isReported = true ∧
      RfcEnded p f kwargs (.error cause) (traceOf t c.history))
  | .valueError message => WrongForm cfg request (.valueError message) (traceOf t c.history)
  | .typeError message => WrongForm cfg request (.typeError message) (traceOf t c.history)
  | .attributeError message =>
    WrongForm cfg request (.attributeError message) (traceOf t c.history)
  | .driver _ _ _ _ | .other _ _ => False

/-- A translated error is of one of the kinds that the driver's errors are translated to. -/
theorem truthful_translate {cause : PyExc} (h : .did t .openConnection (.error cause) ∈ c.history ∨
    ∃ p f kwargs, p.isReported = true ∧
      RfcEnded p f kwargs (.error cause) (traceOf t c.history)) :
    Truthful c t request (ExecutionInvoker.translate cfg cause) := by
  have hsap : ∀ kind message key, ExecutionInvoker.translate cfg cause = .sap kind message key →
      kind ≠ .poolTimeout → kind ≠ .unavailable →
        Truthful c t request (ExecutionInvoker.translate cfg cause) := by
    intro kind message key htranslate htimeout hunavailable
    rw [htranslate]
    cases kind with
    | poolTimeout => exact absurd rfl htimeout
    | unavailable => exact absurd rfl hunavailable
    | _ => exact ⟨cause, htranslate.symm, h⟩
  have hkind : ∃ kind message key, ExecutionInvoker.translate cfg cause = .sap kind message key ∧
      kind ≠ .poolTimeout ∧ kind ≠ .unavailable := by
    unfold ExecutionInvoker.translate translatePyrfcException
    split
    · split <;> exact ⟨_, _, _, rfl, nofun, nofun⟩
    · exact ⟨_, _, _, rfl, nofun, nofun⟩
  obtain ⟨kind, message, key, htranslate, htimeout, hunavailable⟩ := hkind
  exact hsap kind message key htranslate htimeout hunavailable

theorem truthful_ordinary (hexc : exc.isOrdinary = true)
    (h : WrongForm cfg request exc (traceOf t c.history)) : Truthful c t request exc := by
  cases exc with
  | valueError message => exact h
  | typeError message => exact h
  | attributeError message => exact h
  | _ => cases hexc

theorem Misused.ordinary {T : PyText} (h : Misused T request exc) : exc.isOrdinary = true := by
  cases h <;> rfl

theorem exhausted_of_full {p : Program Effects (Except PyExc Answer)} (h : Reachable c)
    (hthread : c.threads[t]? = some (request, p))
    (hfull : ⟨Op.semAcquire, false⟩ ∈ traceOf t c.history) : Exhausted c t request := by
  obtain ⟨b, hb, hlead, hget, s, hdoes⟩ := moment_of_mem h hthread hfull
  have hpermits : b.shared.permits = 0 := by
    cases hdoes with
    | semTimeout hpermits => exact hpermits
  have hconserved := Hands.permits_conserved (hands_reachable (@program_follows cfg) hb)
  refine ⟨b, hlead, hget, hpermits, ?_⟩
  have hshared : (hands b).shared = b.shared := rfl
  rw [hshared, hpermits] at hconserved
  omega

theorem truthful_of_blames {p : Program Effects (Except PyExc Answer)} (h : Reachable c)
    (hthread : c.threads[t]? = some (request, p))
    (hblames : Blames cfg request exc (traceOf t c.history)) :
    cfg.pyrfcKwargs = .error exc ∨ Truthful c t request exc := by
  cases hblames with
  | unconfigured hkwargs => exact .inl hkwargs
  | misused hmisused => exact .inr (truthful_ordinary hmisused.ordinary (.misused hmisused))
  | denied hasks hexc hdenied =>
    subst hexc
    refine .inr (.inl ⟨_, hasks, ?_⟩)
    rw [ExecutionPolicy.allows, hdenied]
    rfl
  | controlDenied hrequest hmode hexc =>
    subst hexc
    exact .inr (.inr ⟨hrequest, hmode⟩)
  | unfit hasks hprovided hexc =>
    obtain ⟨answer, hdescribed, hannounced⟩ := described_of_provided h hprovided
    obtain ⟨⟨message, rfl⟩, hrejected⟩ := rejected_of_error hannounced hexc
    exact .inr ⟨_, _, _, answer, hasks, hdescribed, hrejected⟩
  | unknown hid hlookup hexc =>
    subst hexc
    refine .inr ⟨_, rfl, .inl hid, ?_⟩
    obtain ⟨b, hb, hlead, ⟨q, hget⟩, s, hdoes⟩ := moment_of_mem h hthread hlookup
    exact notOpen_of_active hb hlead hget hdoes.lookup_eq.symm
  | gone he hgone hexc =>
    subst hexc
    refine .inr ⟨_, rfl, ?_, notOpen_of_gone h hthread he hgone⟩
    exact he.imp (fun hnames => hnames.1) fun hregister => ⟨_, mem_traceOf.mp hregister⟩
  | full hfull hexc =>
    subst hexc
    exact .inr (exhausted_of_full h hthread hfull)
  | uninstalled hinstalled hexc =>
    subst hexc
    exact .inr hinstalled
  | unopened hopened hexc =>
    subst hexc
    exact .inr (truthful_translate (.inl (mem_traceOf.mp hopened)))
  | failed hp hended hexc =>
    subst hexc
    exact .inr (truthful_translate (.inr ⟨_, _, _, hp, hended⟩))
  | @limited p f kwargs raw hp hended hexc =>
    right
    have happlied := applied cfg.limits (.dict raw)
    rw [hexc] at happlied
    cases happlied with
    | rows hrows message => exact ⟨p, f, kwargs, raw, hp, hended, .inl hrows⟩
    | encoder _ hdumps =>
      exact truthful_ordinary (ordinary_of_jsonDumps hdumps) (.unencodable hp hended hdumps)
    | bytes _ hdumps hbytes message =>
      exact ⟨p, f, kwargs, raw, hp, hended, .inr ⟨_, hdumps, hbytes⟩⟩
  | malformed hended hexc =>
    exact .inr (truthful_ordinary hexc.ordinary (.malformed hended hexc))
  | misread hended hvalue hexc =>
    exact .inr (truthful_ordinary hexc.ordinary (.misread hended hvalue hexc))

/-- Whatever the schedule and whatever SAP answers, an error that reaches a client is the truth
about the run, unless the connection settings themselves are in error. -/
theorem errors_truthful (h : Reachable c)
    (hthread : c.threads[t]? = some (request, .ret (.error exc))) :
    cfg.pyrfcKwargs = .error exc ∨ Truthful c t request exc :=
  truthful_of_blames h hthread (h.traced (program_blames request) hthread exc rfl)

end Truthful

section Sample

/-- A rollback under an ID that has never been given out. -/
def strayRollback : List (Move (server sampleSettings)) :=
  script 0 (.rollback "T9") [.go, .time 1, .go, .go, .go, .go, .go, .go]

theorem errors_truthful_rollback : ∃ c message,
    execute (server sampleSettings).initial strayRollback = some c ∧
      c.threads[0]? = some (.rollback "T9", .ret (.error (.transactionNotFound message))) ∧
      (sampleSettings.pyrfcKwargs = .error (.transactionNotFound message) ∨
        Truthful c 0 (.rollback "T9") (.transactionNotFound message)) := by
  have hrun : ∃ c message, execute (server sampleSettings).initial strayRollback = some c ∧
      c.threads[0]? = some (.rollback "T9", .ret (.error (.transactionNotFound message))) :=
    ⟨_, _, rfl, rfl⟩
  obtain ⟨c, message, hc, hthread⟩ := hrun
  exact ⟨c, message, hc, hthread, errors_truthful (execute_reachable hc) hthread⟩

end Sample

end RfcMcp
