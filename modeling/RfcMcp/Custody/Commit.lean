import RfcMcp.Custody.Affinity

namespace RfcMcp

open Framework Framework.System

section Hands

variable {cfg : AppSettings} {Request Reply : Type} {program : Request → Program Effects Reply}
  {w : Hands cfg program} {t : ℕ} {e : Entry}

/-- A thread that is about to write on a transaction has not written on it before: it would still
be at that write, or the transaction would have left the table. -/
theorem Hands.current_fresh (h : w.Reachable) (ht : (w.locals t).stage = .current e) :
    e ∉ (w.locals t).started := by
  refine induction (J := fun w => ∀ t e, (w.locals t).stage = .current e →
    e ∉ (w.locals t).started) h ?_ (fun _ _ ih => ih) ?_ t e ht
  · intro t e ht
    cases ht
  · intro w u o v s hw hu hallowed hdoes ih t e ht
    by_cases htu : t = u
    · subst htu
      rw [Crew.advance_self] at ht ⊢
      intro hstarted
      change ((w.locals t).after cfg.limits o v).stage = .current e at ht
      rcases mem_started_of_step hallowed v hstarted with hold | ⟨_, hwriting⟩
      · have hmoves := moves_of_allows hallowed v
        generalize ((w.locals t).after cfg.limits o v).stage = stage at ht hmoves
        cases hmoves with
        | same => exact ih t e ht hold
        | current hs =>
          cases ht
          have hwrites := writer_stage hw hold (lookup_mem (hdoes.isCurrent_true rfl))
          rw [hs] at hwrites
          cases hwrites
        | _ => cases ht
      · rw [ht] at hwriting
        cases hwriting
    · rw [Crew.advance_ne w htu] at ht ⊢
      exact ih t e ht

end Hands

section Results

/-- What a thread's stage says about the results of its writes. -/
structure Custody.Accounts (limits : ResultLimitPolicy) (g : Custody) (rfcs : List Rfc) :
    Prop where
  started : ∀ rfc ∈ rfcs, ∀ e, rfc.purpose = .write e → e ∈ g.started
  writing : ∀ e, g.stage = .writing e → ∃ conn rest,
    rfcs = ⟨conn, .write e, none⟩ :: rest ∧ ∀ rfc ∈ rest, rfc.purpose ≠ .write e
  wrote : ∀ e raw, g.stage = .wrote e raw → ∀ rfc ∈ rfcs, rfc.purpose = .write e →
    rfc.result = some (.ok raw)
  accepted : ∀ e value, g.stage = .accepted e value ∨ g.stage = .written e value →
    ∀ rfc ∈ rfcs, rfc.purpose = .write e →
      ∃ raw, rfc.result = some (.ok raw) ∧ limits.apply (.dict raw) = .ok value

variable {limits : ResultLimitPolicy} {g : Custody} {rfcs : List Rfc}

theorem accounts_start (limits : ResultLimitPolicy) : Custody.Accounts limits {} [] where
  started rfc hmem := absurd hmem List.not_mem_nil
  writing e hs := by cases hs
  wrote e raw hs := by cases hs
  accepted e value hs := by rcases hs with hs | hs <;> cases hs

/-- Outside of RFCs a write goes on to be accepted and to return, or it is given up. -/
theorem stage_quiet {o : Op} (hallowed : g.allows limits o) (v : o.Res) (hrfc : o.isRfc = false) :
    (g.after limits o v).stage = g.stage ∨
      (∃ e raw value, g.stage = .wrote e raw ∧ limits.apply (.dict raw) = .ok value ∧
        (g.after limits o v).stage = .accepted e value) ∨
      (∃ e value, g.stage = .accepted e value ∧ (g.after limits o v).stage = .written e value) ∨
      (g.after limits o v).stage.writes = none := by
  have hmoves := moves_of_allows hallowed v
  generalize (g.after limits o v).stage = stage at hmoves
  cases hmoves with
  | same => exact .inl rfl
  | accepted hs hvalue => exact .inr (.inl ⟨_, _, _, hs, hvalue, rfl⟩)
  | written hs => exact .inr (.inr (.inl ⟨_, _, hs, rfl⟩))
  | writing | wrote | failed => cases hrfc
  | _ => exact .inr (.inr (.inr rfl))

theorem accounts_quiet {o : Op} (hallowed : g.allows limits o) (v : o.Res)
    (hrfc : o.isRfc = false) (hg : g.Accounts limits rfcs) :
    (g.after limits o v).Accounts limits rfcs := by
  have hstarted := (after_sameRfcs limits g v hrfc).started
  rcases stage_quiet hallowed v hrfc with
    hsame | ⟨e, raw, value, hwrote, hvalue, hstage⟩ | ⟨e, value, haccepted, hstage⟩ | hnone
  · exact ⟨hstarted ▸ hg.started, hsame ▸ hg.writing, hsame ▸ hg.wrote, hsame ▸ hg.accepted⟩
  · refine ⟨hstarted ▸ hg.started, fun e' hs => ?_, fun e' raw' hs => ?_, fun e' value' hs => ?_⟩
    · rw [hstage] at hs
      cases hs
    · rw [hstage] at hs
      cases hs
    · intro rfc hmem hp
      rw [hstage] at hs
      rcases hs with hs | hs <;> cases hs
      exact ⟨raw, hg.wrote e raw hwrote rfc hmem hp, hvalue⟩
  · refine ⟨hstarted ▸ hg.started, fun e' hs => ?_, fun e' raw' hs => ?_, fun e' value' hs => ?_⟩
    · rw [hstage] at hs
      cases hs
    · rw [hstage] at hs
      cases hs
    · rw [hstage] at hs
      rcases hs with hs | hs <;> cases hs
      exact hg.accepted e value (.inl haccepted)
  · refine ⟨hstarted ▸ hg.started, fun e' hs => ?_, fun e' raw' hs => ?_, fun e' value' hs => ?_⟩
    · rw [hs] at hnone
      cases hnone
    · rw [hs] at hnone
      cases hnone
    · rcases hs with hs | hs <;> rw [hs] at hnone <;> cases hnone

/-- A write begins on a transaction that the thread has not written on. -/
theorem accounts_begin {conn : Conn} {p : Purpose} {f : String} {kwargs : PyDict}
    (hallowed : g.allows limits (.rfcBegin conn p f kwargs))
    (hidle : ∀ rfc ∈ rfcs, rfc.result ≠ none)
    (hfresh : ∀ e, g.stage = .current e → e ∉ g.started) (hg : g.Accounts limits rfcs) :
    (g.afterBegin conn p).Accounts limits (⟨conn, p, none⟩ :: rfcs) := by
  by_cases hp : ∃ e, p = .write e
  · obtain ⟨e, rfl⟩ := hp
    obtain ⟨_, _, _, hcurrent⟩ := hallowed
    have hnew := hfresh e hcurrent
    refine ⟨?_, fun e' hs => ?_, nofun, fun e' value hs => ?_⟩
    · intro rfc hmem e' hp
      rcases List.mem_cons.mp hmem with rfl | hmem
      · cases hp
        exact List.mem_cons_self
      · exact List.mem_cons_of_mem _ (hg.started rfc hmem e' hp)
    · cases hs
      exact ⟨conn, rfcs, rfl, fun rfc hmem hp => hnew (hg.started rfc hmem e hp)⟩
    · rcases hs with hs | hs <;> cases hs
  · have hstage : (g.afterBegin conn p).stage = g.stage := by
      cases p <;> first | rfl | exact absurd ⟨_, rfl⟩ hp
    have hstarted : (g.afterBegin conn p).started = g.started := by
      cases p <;> first | rfl | exact absurd ⟨_, rfl⟩ hp
    have htail : ∀ rfc ∈ (⟨conn, p, none⟩ :: rfcs : List Rfc), ∀ e, rfc.purpose = .write e →
        rfc ∈ rfcs := by
      intro rfc hmem e hwrite
      rcases List.mem_cons.mp hmem with rfl | hmem
      · exact absurd ⟨e, hwrite⟩ hp
      · exact hmem
    refine ⟨fun rfc hmem e hwrite => ?_, fun e hs => ?_, fun e raw hs rfc hmem hwrite => ?_,
      fun e value hs rfc hmem hwrite => ?_⟩
    · rw [hstarted]
      exact hg.started rfc (htail rfc hmem e hwrite) e hwrite
    · rw [hstage] at hs
      obtain ⟨conn', rest, rfl, _⟩ := hg.writing e hs
      exact absurd rfl (hidle _ List.mem_cons_self)
    · rw [hstage] at hs
      exact hg.wrote e raw hs rfc (htail rfc hmem e hwrite) hwrite
    · rw [hstage] at hs
      exact hg.accepted e value hs rfc (htail rfc hmem e hwrite) hwrite

/-- The result of the RFC that ends is the only one that changes. -/
theorem accounts_end {rfc : Rfc} {r : Except PyExc PyDict} (hopen : rfc.result = none)
    (hg : g.Accounts limits (rfc :: rfcs)) :
    (g.afterEnd r).Accounts limits ({ rfc with result := some r } :: rfcs) := by
  have hstarted : ∀ rfc' ∈ ({ rfc with result := some r } :: rfcs : List Rfc), ∀ e,
      rfc'.purpose = .write e → e ∈ g.started := by
    intro rfc' hmem e hp
    rcases List.mem_cons.mp hmem with rfl | hmem
    · exact hg.started rfc List.mem_cons_self e hp
    · exact hg.started rfc' (List.mem_cons_of_mem _ hmem) e hp
  by_cases hwriting : ∃ e, g.stage = .writing e
  · obtain ⟨e, hs⟩ := hwriting
    obtain ⟨conn, rest, heq, hrest⟩ := hg.writing e hs
    cases heq
    have honly : ∀ rfc' ∈ (⟨conn, .write e, some r⟩ :: rfcs : List Rfc), rfc'.purpose = .write e →
        rfc'.result = some r := by
      intro rfc' hmem hp
      rcases List.mem_cons.mp hmem with rfl | hmem
      · rfl
      · exact absurd hp (hrest rfc' hmem)
    cases r with
    | ok raw =>
      have hafter : (g.afterEnd (.ok raw)).stage = .wrote e raw := by simp [Custody.afterEnd, hs]
      refine ⟨hstarted, fun e' hs' => ?_, fun e' raw' hs' => ?_, fun e' value hs' => ?_⟩
      · rw [hafter] at hs'
        cases hs'
      · rw [hafter] at hs'
        cases hs'
        exact honly
      · rw [hafter] at hs'
        rcases hs' with hs' | hs' <;> cases hs'
    | error exc =>
      have hafter : (g.afterEnd (.error exc)).stage = .failed e := by simp [Custody.afterEnd, hs]
      refine ⟨hstarted, fun e' hs' => ?_, fun e' raw' hs' => ?_, fun e' value hs' => ?_⟩
      · rw [hafter] at hs'
        cases hs'
      · rw [hafter] at hs'
        cases hs'
      · rw [hafter] at hs'
        rcases hs' with hs' | hs' <;> cases hs'
  · have hstage : (g.afterEnd r).stage = g.stage := by
      cases hs : g.stage with
      | writing e => exact absurd ⟨e, hs⟩ hwriting
      | _ => cases r <;> simp [Custody.afterEnd, hs]
    refine ⟨hstarted, fun e hs => ?_, fun e raw hs rfc' hmem hp => ?_,
      fun e value hs rfc' hmem hp => ?_⟩
    · rw [hstage] at hs
      exact absurd ⟨e, hs⟩ hwriting
    · rw [hstage] at hs
      rcases List.mem_cons.mp hmem with rfl | hmem
      · have hresult := hg.wrote e raw hs rfc List.mem_cons_self hp
        rw [hopen] at hresult
        cases hresult
      · exact hg.wrote e raw hs rfc' (List.mem_cons_of_mem _ hmem) hp
    · rw [hstage] at hs
      rcases List.mem_cons.mp hmem with rfl | hmem
      · obtain ⟨raw, hresult, _⟩ := hg.accepted e value hs rfc List.mem_cons_self hp
        rw [hopen] at hresult
        cases hresult
      · exact hg.accepted e value hs rfc' (List.mem_cons_of_mem _ hmem) hp

theorem accounts_step {o : Op} (hallowed : g.allows limits o) (v : o.Res)
    (htracks : Rfc.Tracks g.busy rfcs) (hfresh : ∀ e, g.stage = .current e → e ∉ g.started)
    (hg : g.Accounts limits rfcs) : (g.after limits o v).Accounts limits (o.onRfcs v rfcs) := by
  cases hrfc : o.isRfc with
  | false =>
    have hsame : o.onRfcs v rfcs = rfcs := by cases o <;> first | rfl | cases hrfc
    rw [hsame]
    exact accounts_quiet hallowed v hrfc hg
  | true =>
    cases o with
    | rfcBegin conn p f kwargs =>
      rw [hallowed.2.1] at htracks
      exact accounts_begin hallowed htracks hfresh hg
    | rfcEnd conn f kwargs =>
      obtain ⟨_, p, hbusy⟩ := hallowed
      rw [hbusy] at htracks
      obtain ⟨rest, rfl, _⟩ := htracks
      exact accounts_end rfl hg
    | _ => cases hrfc

end Results

/-- Two different members count twice. -/
theorem two_le_countP {α : Type} {a b : α} {l : List α} {p : α → Bool} (ha : a ∈ l) (hb : b ∈ l)
    (hne : a ≠ b) (hpa : p a = true) (hpb : p b = true) : 2 ≤ l.countP p := by
  obtain ⟨l₁, l₂, rfl⟩ := List.append_of_mem ha
  have hmem : b ∈ l₁ ++ l₂ := by
    rcases List.mem_append.mp hb with hb | hb
    · exact List.mem_append_left _ hb
    · rcases List.mem_cons.mp hb with rfl | hb
      · exact absurd rfl hne
      · exact List.mem_append_right _ hb
  have hpos : 0 < (l₁ ++ l₂).countP p := List.countP_pos_iff.mpr ⟨b, hmem, hpb⟩
  rw [List.countP_append] at hpos
  rw [List.countP_append, List.countP_cons, if_pos hpa]
  omega

section Runs

variable {cfg : AppSettings} {c : Run cfg} {t : ℕ} {e : Entry}

theorem accounts (h : Reachable c) (t : ℕ) :
    ((hands c).locals t).Accounts cfg.limits (rfcsOf t c.history) := by
  have hprog := @program_follows cfg
  refine run_induction hprog
    (I := fun c => ((hands c).locals t).Accounts cfg.limits (rfcsOf t c.history))
    (accounts_start cfg.limits) (fun _ _ _ _ ih => ih) ?_ h
  intro c u o v c' hc hw hu hallowed hdoes hhands hhistory ih
  rw [hhands, hhistory]
  unfold rfcsOf
  by_cases hut : u = t
  · subst hut
    rw [Crew.advance_self, if_pos rfl]
    exact accounts_step hallowed v (rfcsOf_tracks hprog hc u)
      (fun e hs => Hands.current_fresh hw hs) ih
  · rw [Crew.advance_ne _ (Ne.symm hut), if_neg hut]
    exact ih

/-- What a COMMIT stands for. -/
structure CommitIntegrity (c : Run cfg) : Prop where
  /-- When the COMMIT of a transaction is issued, its connection has seen nothing but its writes
  since the transaction was opened. -/
  only_writes : ∀ (later earlier : History Request) t conn e f kwargs,
    c.history = later ++ .did t (.rfcBegin conn (.commit e) f kwargs) () :: earlier →
    conn = e.2.connection ∧ ∀ p ∈ issuedOn conn earlier, p = .write e
  /-- Once the COMMIT of a transaction has been issued, every write on it has been answered by SAP,
  has passed the result limits, and has returned its result and the ID. -/
  writes_accepted : ∀ t e, .commit e ∈ recordOf Op.controls t c.history →
    ∀ u rfc, rfc ∈ rfcsOf u c.history → rfc.purpose = .write e →
      ∃ raw value request, rfc.result = some (.ok raw) ∧
        cfg.limits.apply (.dict raw) = .ok value ∧
        c.threads[u]? = some (request, .ret (.ok (.written value (some e.1))))
  /-- There is no ROLLBACK for it, before or after. -/
  no_rollback : ∀ e, .commit e ∈ record Op.controls c.history →
    ∀ p ∈ record Op.controls c.history, p.controls = some e → p = .commit e
  /-- A write whose request has raised has no COMMIT, and gets none. -/
  failed_not_committed : ∀ u request exc, c.threads[u]? = some (request, .ret (.error exc)) →
    ∀ rfc ∈ rfcsOf u c.history, ∀ e, rfc.purpose = .write e →
      ∀ d : Run cfg, Leads c d → .commit e ∉ record Op.controls d.history

theorem rfcsOf_append {R : Type} {later h : History R} (hnone : ∀ o v, .did t o v ∉ later) :
    rfcsOf t (later ++ h) = rfcsOf t h := by
  induction later with
  | nil => rfl
  | cons ev later ih =>
    have hrest := ih fun o v hmem => hnone o v (List.mem_cons_of_mem _ hmem)
    cases ev with
    | start u r => exact hrest
    | did u o v =>
      have hu : u ≠ t := by
        rintro rfl
        exact hnone o v List.mem_cons_self
      rw [List.cons_append, rfcsOf, if_neg hu]
      exact hrest

/-- A thread in stage `written` has returned what it accepted. -/
theorem returned_of_written (h : Reachable c) {value : PyValue}
    (hs : ((hands c).locals t).stage = .written e value) :
    ∃ request, c.threads[t]? = some (request, .ret (.ok (.written value (some e.1)))) := by
  have hprog := @program_follows cfg
  have hlt : t < c.threads.length := by
    by_contra hle
    rw [(hands_reachable hprog h).unborn (Nat.le_of_not_lt hle)] at hs
    cases hs
  have hthread : ∃ thread, c.threads[t]? = some thread := ⟨_, List.getElem?_eq_getElem hlt⟩
  obtain ⟨⟨request, p⟩, hget⟩ := hthread
  have hfollows := h.disciplined (P := fun _ => custody cfg.limits) hprog t request p hget
  cases p with
  | call o next =>
    have hreturned : ((hands c).locals t).stage.returned = false := hfollows.1.1
    rw [hs] at hreturned
    cases hreturned
  | ret reply =>
    have houtcome : ((hands c).locals t).Outcome cfg reply := hfollows
    obtain hidle | ⟨id, hdoomed, _⟩ | ⟨e', value', hwritten, rfl⟩ := houtcome.idle_or
    · rw [hs] at hidle
      cases hidle
    · rw [hs] at hdoomed
      cases hdoomed
    · rw [hs] at hwritten
      cases hwritten
      exact ⟨request, hget⟩

theorem writes_accepted (h : Reachable c) (hcommit : .commit e ∈ recordOf Op.controls t c.history)
    {u : ℕ} {rfc : Rfc} (hrfc : rfc ∈ rfcsOf u c.history) (hp : rfc.purpose = .write e) :
    ∃ raw value request, rfc.result = some (.ok raw) ∧ cfg.limits.apply (.dict raw) = .ok value ∧
      c.threads[u]? = some (request, .ret (.ok (.written value (some e.1)))) := by
  have hprog := @program_follows cfg
  have hw := hands_reachable hprog h
  have hsealed := Hands.committed_sealed hw ((mem_controls hprog h).mp hcommit)
  have haccounts := accounts h u
  obtain ⟨value, hwritten⟩ := hsealed.written u (haccounts.started rfc hrfc e hp)
  obtain ⟨raw, hresult, hvalue⟩ := haccounts.accepted e value (.inr hwritten) rfc hrfc hp
  obtain ⟨request, hthread⟩ := returned_of_written h hwritten
  exact ⟨raw, value, request, hresult, hvalue, hthread⟩

theorem commit_integrity (h : Reachable c) : CommitIntegrity c := by
  have hprog := @program_follows cfg
  have hw := hands_reachable hprog h
  constructor
  · intro later earlier t conn e f kwargs hh
    obtain ⟨b, d, hb, hperforms, hlead, rfl, hd⟩ := h.performed hh
    have hwb := hands_reachable hprog hb
    have hallowed : ((hands b).locals t).allows cfg.limits (.rfcBegin conn (.commit e) f kwargs) :=
      hperforms.allowed hprog hb
    obtain ⟨⟨rfl, hremoved, _⟩, _⟩ := hallowed.2.2
    have hopen := (Hands.open_iff hwb).mpr (.inr ⟨t, hremoved⟩)
    refine ⟨rfl, fun p hp => ?_⟩
    have hentry := (issuedOn_owned hprog hb).1 e hopen p hp
    have hother : p.controls ≠ some e := by
      intro he
      have hbefore := countP_issuedOn_le e.2.connection b.history (Purpose.controlsEntry e)
      have hpos : 0 < (issuedOn e.2.connection b.history).countP (Purpose.controlsEntry e) :=
        List.countP_pos_iff.mpr ⟨p, hp, decide_eq_true he⟩
      have hdr := hb.step (.run hperforms)
      have hone := Hands.controls_le_one (hands_reachable hprog hdr) e
      rw [← controls_all hprog hdr, ← countP_issues_controls, hd] at hone
      have hcommit : (Purpose.commit e).controlsEntry e = true := decide_eq_true rfl
      simp only [record, Op.issues, List.countP_append, List.countP_cons, List.countP_nil, hcommit,
        if_true] at hone
      omega
    cases p <;> cases hentry <;> first | rfl | exact absurd rfl hother
  · intro t e hcommit u rfc hrfc hp
    exact writes_accepted h hcommit hrfc hp
  · intro e hcommit p hp he
    have hone := Hands.controls_le_one hw e
    rw [← controls_all hprog h] at hone
    by_contra hne
    have htwo := two_le_countP hcommit hp (Ne.symm hne) (p := Purpose.controlsEntry e)
      (decide_eq_true rfl) (decide_eq_true he)
    omega
  · intro u request exc hthread rfc hrfc e hp d hlead hcommit
    obtain ⟨hret, later, hlater, hnone⟩ := Leads.returned hlead hthread
    obtain ⟨t, ht⟩ := exists_recordOf hcommit
    have hrfc' : rfc ∈ rfcsOf u d.history := by
      rw [hlater, rfcsOf_append hnone]
      exact hrfc
    obtain ⟨_, _, request', _, _, hok⟩ := writes_accepted (h.leads hlead) ht hrfc' hp
    rw [hret] at hok
    cases hok

theorem commit_integrity_commit :
    ∃ c, execute (server sampleSettings).initial (sampleWrite 0 ++ sampleCommit 1) = some c ∧
      CommitIntegrity c := by
  have hrun : (execute (server sampleSettings).initial
      (sampleWrite 0 ++ sampleCommit 1)).isSome = true := by decide +kernel
  obtain ⟨c, hc⟩ := Option.isSome_iff_exists.mp hrun
  exact ⟨c, hc, commit_integrity (execute_reachable hc)⟩

end Runs

end RfcMcp
