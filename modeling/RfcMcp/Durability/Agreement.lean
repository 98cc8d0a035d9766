import RfcMcp.Durability.Units

namespace RfcMcp

open Framework Framework.System

variable {cfg : AppSettings} {c c' : Run cfg} {t u : ℕ} {e : Entry} {conn : Conn} {p q : Purpose}
  {updates : SapCall → Bool} {L : SapLedger} {committed : List Entry} {o : Op} {v : o.Res}

/-- How SAP's side fits to a run. `committed` are the transactions whose COMMIT has taken effect,
the newest first. -/
structure Agrees (updates : SapCall → Bool) (c : Run cfg) (L : SapLedger)
    (committed : List Entry) : Prop where
  /-- Only what a thread has issued, and waits for, is being executed. -/
  running : ∀ conn call, L.executing conn = some call →
    ∃ t p, ((hands c).locals t).busy = some (conn, p) ∧ p.Suits updates call
  /-- Nothing is staged on a connection that somebody may get hold of. -/
  clear : ∀ conn, Clear c conn → L.pending conn = []
  settled : ∀ t e, Rfc.Settles e (rfcsOf t c.history) → (hands c).Open e →
    L.pending e.2.connection = []
  ending : ∀ t e p, ((hands c).locals t).busy = some (e.2.connection, p) → p.controls = some e →
    L.executing e.2.connection = none → L.pending e.2.connection = []
  /-- Until its end is issued, a transaction whose writes have not raised has exactly its updates
  staged, one of them perhaps still under way. -/
  staged : ∀ e, (hands c).Open e → (∀ p ∈ record Op.issues c.history, p.controls ≠ some e) →
    (∀ t, writeRaised t e c.history = false) →
    L.staged (workEffect updates) e.2.connection = updatesFor updates e c.history
  committing : ∀ t e call, ((hands c).locals t).busy = some (e.2.connection, .commit e) →
    L.executing e.2.connection = some call →
    L.pending e.2.connection = updatesFor updates e c.history ∧ e ∉ committed
  confirmed : ∀ t e, ((hands c).locals t).busy = some (e.2.connection, .commit e) →
    L.executing e.2.connection = none → e ∈ committed
  nodup : committed.Nodup
  groups : L.durable = committed.map fun e => updatesFor updates e c.history
  issued : ∀ e ∈ committed, .commit e ∈ record Op.issues c.history
  acknowledged : ∀ t rfc raw e, rfc ∈ rfcsOf t c.history → rfc.purpose = .commit e →
    rfc.result = some (.ok raw) → e ∈ committed

section Frames

theorem others_busy (hp : Performs c t o v c') (hu : u ≠ t) :
    ((hands c').locals u).busy = ((hands c).locals u).busy := by
  have hhands : hands c' = (hands c).advance t o v c'.shared := Crew.of_performs hp
  rw [hhands, Crew.advance_ne _ hu]

theorem others_rfcs (hp : Performs c t o v c') (hu : u ≠ t) :
    rfcsOf u c'.history = rfcsOf u c.history := by
  rw [history_of_performs hp, rfcsOf, if_neg (Ne.symm hu)]

theorem quiet_busy (hp : Performs c t o v c') (ho : o.isRfc = false) (u : ℕ) :
    ((hands c').locals u).busy = ((hands c).locals u).busy := by
  by_cases hu : u = t
  · subst hu
    have hhands : hands c' = (hands c).advance u o v c'.shared := Crew.of_performs hp
    rw [hhands, Crew.advance_self]
    exact (after_sameRfcs cfg.limits _ v ho).busy
  · exact others_busy hp hu

theorem quiet_rfcs (hp : Performs c t o v c') (ho : o.isRfc = false) (u : ℕ) :
    rfcsOf u c'.history = rfcsOf u c.history := by
  by_cases hu : u = t
  · subst hu
    rw [history_of_performs hp, rfcsOf, if_pos rfl]
    cases o <;> first | rfl | cases ho
  · exact others_rfcs hp hu

theorem quiet_issues (hp : Performs c t o v c')
    (ho : ∀ conn p f kwargs, o ≠ .rfcBegin conn p f kwargs) :
    record Op.issues c'.history = record Op.issues c.history := by
  rw [history_of_performs hp, record]
  cases o with
  | rfcBegin conn p f kwargs => exact absurd rfl (ho conn p f kwargs)
  | _ => rfl

theorem quiet_updates (hp : Performs c t o v c')
    (ho : ∀ conn f kwargs, o ≠ .rfcBegin conn (.write e) f kwargs) :
    updatesFor updates e c'.history = updatesFor updates e c.history := by
  rw [history_of_performs hp, updatesFor_did v ho]

theorem seen_of_issued (h : Reachable c) (hp : p ∈ record Op.issues c.history)
    (he : p.controls = some e) : (hands c).Seen e :=
  issued_seen (@program_follows cfg) h hp (Purpose.entry_of_controls he)

/-- The newest RFC of a thread has been issued. -/
theorem Rfc.Settles.issued {h : History Request} (hsettles : Rfc.Settles e (rfcsOf t h)) :
    ∃ p ∈ record Op.issues h, p.controls = some e := by
  obtain ⟨conn, p, raw, rest, hrfcs, he⟩ := hsettles
  have hmem : (⟨conn, p, some (.ok raw)⟩ : Rfc) ∈ rfcsOf t h := by
    rw [hrfcs]
    exact List.mem_cons_self
  exact ⟨p, mem_issues_of_rfcsOf hmem, he⟩

end Frames

section Steps

theorem Agrees.spawn (h : Agrees updates c L committed) (r : Request) (hc : Reachable c) :
    Agrees updates (c.spawn r) L committed := by
  have hhands : hands (c.spawn r) = { hands c with size := (hands c).size + 1 } :=
    Crew.of_spawn c r
  have hstart := (hands_reachable (@program_follows cfg) hc).unborn (Nat.le_refl _)
  have hopen : ∀ e, (hands (c.spawn r)).Open e → (hands c).Open e := by
    intro e he
    rw [hhands] at he
    unfold Hands.Open at he ⊢
    rw [Hands.openCount_start hstart] at he
    exact he
  constructor
  · exact h.running
  · exact fun conn hclear => h.clear conn hclear.of_spawn
  · exact fun t e hsettles he => h.settled t e hsettles (hopen e he)
  · exact h.ending
  · exact fun e he => h.staged e (hopen e he)
  · exact h.committing
  · exact h.confirmed
  · exact h.nodup
  · exact h.groups
  · exact h.issued
  · exact h.acknowledged

/-- A step without an RFC. -/
theorem Agrees.quiet (h : Agrees updates c L committed) (hc : Reachable c)
    (hp : Performs c t o v c') (ho : o.isRfc = false) : Agrees updates c' L committed := by
  have hbusy := quiet_busy hp ho
  have hrfcs := quiet_rfcs hp ho
  have hnobegin : ∀ conn p f kwargs, o ≠ .rfcBegin conn p f kwargs := by
    rintro conn p f kwargs rfl
    cases ho
  have hissues := quiet_issues hp hnobegin
  have hupdates : ∀ e, updatesFor updates e c'.history = updatesFor updates e c.history :=
    fun e => quiet_updates hp fun conn f kwargs => hnobegin conn (.write e) f kwargs
  have hraised : ∀ t e, writeRaised t e c'.history = writeRaised t e c.history := by
    intro t e
    rw [writeRaised, writeRaised, hrfcs]
  constructor
  · intro conn call hexec
    obtain ⟨u, p, hu, hsuits⟩ := h.running conn call hexec
    exact ⟨u, p, (hbusy u).trans hu, hsuits⟩
  · intro conn hclear
    rcases hclear.of_run hc hp with hbefore | ⟨e, hremoved, rfl, hsettles⟩
    · exact h.clear conn hbefore
    · have hw := hands_reachable (@program_follows cfg) hc
      exact h.settled t e hsettles ((Hands.open_iff hw).mpr (.inr ⟨t, hremoved⟩))
  · intro u e hsettles hopen
    rw [hrfcs] at hsettles
    rcases open_of_run hc hp hopen with hbefore | henters
    · exact h.settled u e hsettles hbefore
    · -- what has been ended is not registered again
      obtain ⟨p, hissued, he⟩ := hsettles.issued
      cases o <;> first | cases henters; done | skip
      case register id a =>
        cases henters
        exact absurd (seen_of_issued hc hissued he) (not_seen_of_register hc hp)
  · intro u e p hu
    rw [hbusy] at hu
    exact h.ending u e p hu
  · intro e hopen hnone hfine
    rw [hupdates]
    rw [hissues] at hnone
    simp only [hraised] at hfine
    rcases open_of_run hc hp hopen with hbefore | henters
    · exact h.staged e hbefore hnone hfine
    · cases o <;> first | cases henters; done | skip
      case register id a =>
        -- a new transaction has an unused connection, and no write of it has been issued
        cases henters
        have hallowed : ((hands c).locals t).allows cfg.limits (.register id a) :=
          hp.allowed (@program_follows cfg) hc
        have hheld : ((hands c).locals t).holding = .borrowed a.connection false :=
          hallowed.2.2.2
        have hquiet : L.executing a.connection = none := by
          cases hexec : L.executing a.connection with
          | none => rfl
          | some call =>
            obtain ⟨u, p, hu, _⟩ := h.running a.connection call hexec
            exact absurd hu (not_busy_of_unused hc hheld)
        have hunissued : .write (id, a) ∉ record Op.issues c.history := fun hmem =>
          not_seen_of_register hc hp (issued_seen (@program_follows cfg) hc hmem rfl)
        rw [Ledger.staged_quiet hquiet, updatesFor_unissued hunissued]
        exact h.clear a.connection (.borrowed hheld)
  · intro u e call hu hexec
    rw [hbusy] at hu
    rw [hupdates]
    exact h.committing u e call hu hexec
  · intro u e hu hexec
    rw [hbusy] at hu
    exact h.confirmed u e hu hexec
  · exact h.nodup
  · simp only [hupdates]
    exact h.groups
  · rw [hissues]
    exact h.issued
  · intro u rfc raw e hmem
    rw [hrfcs] at hmem
    exact h.acknowledged u rfc raw e hmem

section Begin

variable {f : String} {kwargs : PyDict}

theorem begin_busy (hp : Performs c t (.rfcBegin conn p f kwargs) () c') :
    ((hands c').locals t).busy = some (conn, p) := by
  have hhands : hands c' = (hands c).advance t (.rfcBegin conn p f kwargs) () c'.shared :=
    Crew.of_performs hp
  rw [hhands, Crew.advance_self]
  exact Custody.afterBegin_busy _ conn p

theorem begin_rfcs (hp : Performs c t (.rfcBegin conn p f kwargs) () c') :
    rfcsOf t c'.history = ⟨conn, p, none⟩ :: rfcsOf t c.history := by
  rw [history_of_performs hp, rfcsOf, if_pos rfl]
  rfl

theorem begin_issues (hp : Performs c t (.rfcBegin conn p f kwargs) () c') :
    record Op.issues c'.history = p :: record Op.issues c.history := by
  rw [history_of_performs hp]
  rfl

theorem begin_raised (hp : Performs c t (.rfcBegin conn p f kwargs) () c') (u : ℕ) (e : Entry) :
    writeRaised u e c'.history = writeRaised u e c.history := by
  by_cases hu : u = t
  · subst hu
    simp [writeRaised, begin_rfcs hp, Rfc.raised]
  · rw [writeRaised, writeRaised, others_rfcs hp hu]

/-- The updates of a transaction whose end has been issued stay as they are. -/
theorem begin_updates (hc : Reachable c) (hp : Performs c t (.rfcBegin conn p f kwargs) () c')
    (hq : q ∈ record Op.issues c.history) (he : q.controls = some e) :
    updatesFor updates e c'.history = updatesFor updates e c.history := by
  apply quiet_updates hp
  rintro conn' f' kwargs' heq
  cases heq
  exact not_write_of_issued hc hp hq he

/-- When a COMMIT is issued, no write of the transaction has raised. -/
theorem commit_fine (hc : Reachable c)
    (hp : Performs c t (.rfcBegin conn (.commit e) f kwargs) () c') (u : ℕ) :
    writeRaised u e c.history = false := by
  have hc' := hc.step (.run hp)
  have hcommit : .commit e ∈ recordOf Op.controls t c'.history := by
    rw [history_of_performs hp, recordOf_did_self]
    exact List.mem_cons_self
  rw [← begin_raised hp, writeRaised, List.any_eq_false]
  intro rfc hmem
  by_cases hwrite : rfc.purpose = .write e
  · obtain ⟨raw, _, _, hresult, _⟩ := writes_accepted hc' hcommit hmem hwrite
    simp [Rfc.raised, hresult]
  · simp [hwrite]

theorem Agrees.begin (hclass : Classified cfg updates) (h : Agrees updates c L committed)
    (hc : Reachable c) (hp : Performs c t (.rfcBegin conn p f kwargs) () c') :
    Agrees updates c' (L.begin conn ⟨f, kwargs⟩) committed := by
  have hw := hands_reachable (@program_follows cfg) hc
  have hbusy := begin_busy hp
  have hothers := fun u hu => others_busy (u := u) hp hu
  have halone : ∀ u q, ((hands c).locals u).busy ≠ some (conn, q) :=
    fun u q => begin_alone hc hp
  have hquiet : L.executing conn = none := by
    cases hexec : L.executing conn with
    | none => rfl
    | some call =>
      obtain ⟨u, q, hu, _⟩ := h.running conn call hexec
      exact absurd hu (halone u q)
  have hallowed : ((hands c).locals t).allows cfg.limits (.rfcBegin conn p f kwargs) :=
    hp.allowed (@program_follows cfg) hc
  have hfree : ((hands c).locals t).busy = none := hallowed.2.1
  have hold : ∀ u q k, ((hands c').locals u).busy = some (k, q) → k ≠ conn →
      ((hands c).locals u).busy = some (k, q) := by
    intro u q k hu hk
    by_cases hut : u = t
    · subst hut
      rw [hbusy] at hu
      cases hu
      exact absurd rfl hk
    · rw [← hothers u hut]
      exact hu
  constructor
  · intro k call hexec
    by_cases hk : k = conn
    · subst hk
      rw [Ledger.begin_self] at hexec
      cases hexec
      have hnewest : c'.history = [] ++ .did t (.rfcBegin k p f kwargs) () :: c.history :=
        history_of_performs hp
      have hsuits := issued_suits hclass (hc.step (.run hp)) hnewest
      exact ⟨t, p, hbusy, hsuits⟩
    · rw [Ledger.begin_ne hk] at hexec
      obtain ⟨u, q, hu, hsuits⟩ := h.running k call hexec
      have hut : u ≠ t := by
        rintro rfl
        rw [hfree] at hu
        cases hu
      exact ⟨u, q, (hothers u hut).trans hu, hsuits⟩
  · intro k hclear
    rcases hclear.of_run hc hp with hbefore | ⟨e, hremoved, rfl, hsettles⟩
    · exact h.clear k hbefore
    · exact h.settled t e hsettles ((Hands.open_iff hw).mpr (.inr ⟨t, hremoved⟩))
  · intro u e hsettles hopen
    have hut : u ≠ t := by
      rintro rfl
      obtain ⟨_, _, _, _, hrfcs, _⟩ := hsettles
      rw [begin_rfcs hp] at hrfcs
      cases hrfcs
    rw [others_rfcs hp hut] at hsettles
    have hbefore := (open_of_run hc hp hopen).resolve_right nofun
    exact h.settled u e hsettles hbefore
  · intro u e q hu he hexec
    have hk : e.2.connection ≠ conn := by
      intro hk
      rw [hk, Ledger.begin_self] at hexec
      cases hexec
    rw [Ledger.begin_ne hk] at hexec
    exact h.ending u e q (hold u q _ hu hk) he hexec
  · intro e hopen hnone hfine
    have hbefore := (open_of_run hc hp hopen).resolve_right nofun
    rw [begin_issues hp] at hnone
    have hnone' : ∀ q ∈ record Op.issues c.history, q.controls ≠ some e :=
      fun q hq => hnone q (List.mem_cons_of_mem _ hq)
    have hstaged := h.staged e hbefore hnone' fun u => (begin_raised hp u e).symm.trans (hfine u)
    by_cases hk : e.2.connection = conn
    · -- the RFC is a write of this very transaction
      subst hk
      have hentry : p = .write e := by
        have hopened := entry_of_busy (hc.step (.run hp)) hbusy hopen
        have hcontrols := hnone p List.mem_cons_self
        cases p <;> first | cases hopened; done | skip
        case write => cases hopened; rfl
        all_goals
          cases hopened
          exact absurd rfl hcontrols
      subst hentry
      rw [Ledger.staged_begin hquiet, hstaged, history_of_performs hp, updatesFor_write]
    · have hsame : (L.begin conn ⟨f, kwargs⟩).staged (workEffect updates) e.2.connection =
          L.staged (workEffect updates) e.2.connection :=
        Ledger.staged_congr rfl (Ledger.begin_ne hk)
      rw [hsame, hstaged, quiet_updates hp]
      rintro conn' f' kwargs' heq
      cases heq
      exact hk hallowed.2.2.1.symm
  · intro u e call hu hexec
    by_cases hk : e.2.connection = conn
    · subst hk
      have hut : u = t := by
        by_contra hut
        rw [hothers u hut] at hu
        exact halone u _ hu
      subst hut
      rw [hbusy] at hu
      cases hu
      have hcommit : (Purpose.commit e).controls = some e := rfl
      have hnone := control_new hc hp hcommit
      have hopen : (hands c).Open e := by
        rcases Hands.begin_entry hw hallowed with ⟨hentry, _⟩ | ⟨e', he', hopen, _⟩
        · cases hentry
        · cases he'
          exact hopen
      have hstaged := h.staged e hopen hnone (commit_fine hc hp)
      rw [Ledger.staged_quiet hquiet] at hstaged
      rw [quiet_updates hp nofun]
      refine ⟨hstaged, fun hmem => ?_⟩
      exact hnone _ (h.issued e hmem) rfl
    · rw [Ledger.begin_ne hk] at hexec
      have hu' := hold u _ _ hu hk
      rw [begin_updates hc hp (issued_of_busy hc hu') rfl]
      exact h.committing u e call hu' hexec
  · intro u e hu hexec
    have hk : e.2.connection ≠ conn := by
      intro hk
      rw [hk, Ledger.begin_self] at hexec
      cases hexec
    rw [Ledger.begin_ne hk] at hexec
    exact h.confirmed u e (hold u _ _ hu hk) hexec
  · exact h.nodup
  · have hsame : ∀ e ∈ committed, updatesFor updates e c.history =
        updatesFor updates e c'.history :=
      fun e he => (begin_updates hc hp (h.issued e he) rfl).symm
    exact h.groups.trans (List.map_congr_left hsame)
  · intro e he
    rw [begin_issues hp]
    exact List.mem_cons_of_mem _ (h.issued e he)
  · intro u rfc raw e hmem hpurpose hresult
    by_cases hut : u = t
    · subst hut
      rw [begin_rfcs hp] at hmem
      rcases List.mem_cons.mp hmem with rfl | hmem
      · cases hresult
      · exact h.acknowledged u rfc raw e hmem hpurpose hresult
    · rw [others_rfcs hp hut] at hmem
      exact h.acknowledged u rfc raw e hmem hpurpose hresult

end Begin

section End

variable {f : String} {kwargs : PyDict} {r : Except PyExc PyDict}

/-- An RFC ends for the thread that waits for it. -/
theorem end_rfcs (hc : Reachable c) (hp : Performs c t (.rfcEnd conn f kwargs) r c') :
    ∃ p rest, ((hands c).locals t).busy = some (conn, p) ∧ ((hands c').locals t).busy = none ∧
      rfcsOf t c.history = ⟨conn, p, none⟩ :: rest ∧
      rfcsOf t c'.history = ⟨conn, p, some r⟩ :: rest := by
  have hprog := @program_follows cfg
  have hallowed : ((hands c).locals t).allows cfg.limits (.rfcEnd conn f kwargs) :=
    hp.allowed hprog hc
  obtain ⟨_, p, hbusy⟩ := hallowed
  have htracks := rfcsOf_tracks hprog hc t
  rw [hbusy] at htracks
  obtain ⟨rest, hrfcs, _⟩ := htracks
  have hhands : hands c' = (hands c).advance t (.rfcEnd conn f kwargs) r c'.shared :=
    Crew.of_performs hp
  refine ⟨p, rest, hbusy, ?_, hrfcs, ?_⟩
  · rw [hhands, Crew.advance_self]
    rfl
  · rw [history_of_performs hp, rfcsOf, if_pos rfl, hrfcs]
    rfl

/-- The answer of SAP to an RFC: a result, after the call has taken effect, or an exception. -/
theorem Agrees.ended (h : Agrees updates c L committed) (hc : Reachable c)
    (hp : Performs c t (.rfcEnd conn f kwargs) r c')
    (hdone : ∀ raw, r = .ok raw → L.executing conn = none) :
    Agrees updates c' (L.drop conn) committed := by
  have hw := hands_reachable (@program_follows cfg) hc
  obtain ⟨p, rest, hbusy, hfree, hrfcs, hrfcs'⟩ := end_rfcs hc hp
  have hothers := fun u hu => others_busy (u := u) hp hu
  have hissues := quiet_issues hp nofun
  have hupdates : ∀ e, updatesFor updates e c'.history = updatesFor updates e c.history :=
    fun e => quiet_updates hp nofun
  have hold : ∀ u q k, ((hands c').locals u).busy = some (k, q) →
      ((hands c).locals u).busy = some (k, q) ∧ k ≠ conn := by
    intro u q k hu
    have hut : u ≠ t := by
      rintro rfl
      rw [hfree] at hu
      cases hu
    rw [hothers u hut] at hu
    refine ⟨hu, ?_⟩
    rintro rfl
    exact hut (Hands.busy_unique hw hu hbusy)
  constructor
  · intro k call hexec
    have hk : k ≠ conn := by
      rintro rfl
      rw [Ledger.drop_self] at hexec
      cases hexec
    rw [Ledger.drop_ne hk] at hexec
    obtain ⟨u, q, hu, hsuits⟩ := h.running k call hexec
    have hut : u ≠ t := by
      rintro rfl
      rw [hbusy] at hu
      cases hu
      exact hk rfl
    exact ⟨u, q, (hothers u hut).trans hu, hsuits⟩
  · intro k hclear
    rcases hclear.of_run hc hp with hbefore | ⟨e, hremoved, rfl, hsettles⟩
    · exact h.clear k hbefore
    · exact h.settled t e hsettles ((Hands.open_iff hw).mpr (.inr ⟨t, hremoved⟩))
  · intro u e hsettles hopen
    have hbefore := (open_of_run hc hp hopen).resolve_right nofun
    by_cases hut : u = t
    · -- the end of the transaction has just been confirmed
      subst hut
      obtain ⟨conn', q, raw, rest', heq, he⟩ := hsettles
      rw [hrfcs'] at heq
      cases heq
      have hconn := (open_of_busy hc hbusy (Purpose.entry_of_controls he)).2
      subst hconn
      exact h.ending u e p hbusy he (hdone raw rfl)
    · rw [others_rfcs hp hut] at hsettles
      exact h.settled u e hsettles hbefore
  · intro u e q hu he hexec
    obtain ⟨hu', hk⟩ := hold u q _ hu
    rw [Ledger.drop_ne hk] at hexec
    exact h.ending u e q hu' he hexec
  · intro e hopen hnone hfine
    have hbefore := (open_of_run hc hp hopen).resolve_right nofun
    rw [hissues] at hnone
    have hfine' : ∀ u, writeRaised u e c.history = false := by
      intro u
      have hu := hfine u
      by_cases hut : u = t
      · subst hut
        rw [writeRaised, hrfcs', List.any_cons, Bool.or_eq_false_iff] at hu
        rw [writeRaised, hrfcs, List.any_cons, hu.2]
        simp [Rfc.raised]
      · rw [writeRaised, others_rfcs hp hut] at hu
        exact hu
    have hstaged := h.staged e hbefore hnone hfine'
    rw [hupdates, ← hstaged]
    by_cases hk : e.2.connection = conn
    · -- the RFC that has ended was a write of this transaction, and it has not raised
      subst hk
      have hentry := entry_of_busy hc hbusy hbefore
      have hcontrols := hnone p (issued_of_busy hc hbusy)
      have hwrite : p = .write e := by
        cases p <;> first | cases hentry; done | skip
        case write => cases hentry; rfl
        all_goals
          cases hentry
          exact absurd rfl hcontrols
      subst hwrite
      have hok : ∃ raw, r = .ok raw := by
        cases r with
        | ok raw => exact ⟨raw, rfl⟩
        | error exc =>
          have ht := hfine t
          rw [writeRaised, hrfcs'] at ht
          simp [Rfc.raised] at ht
      obtain ⟨raw, rfl⟩ := hok
      rw [Ledger.drop_quiet (hdone raw rfl)]
    · exact Ledger.staged_congr rfl (Ledger.drop_ne hk)
  · intro u e call hu hexec
    obtain ⟨hu', hk⟩ := hold u _ _ hu
    rw [Ledger.drop_ne hk] at hexec
    rw [hupdates]
    exact h.committing u e call hu' hexec
  · intro u e hu hexec
    obtain ⟨hu', hk⟩ := hold u _ _ hu
    rw [Ledger.drop_ne hk] at hexec
    exact h.confirmed u e hu' hexec
  · exact h.nodup
  · simp only [hupdates]
    exact h.groups
  · rw [hissues]
    exact h.issued
  · intro u rfc raw e hmem hpurpose hresult
    by_cases hut : u = t
    · subst hut
      rw [hrfcs'] at hmem
      rcases List.mem_cons.mp hmem with rfl | hmem
      · cases hpurpose
        cases hresult
        obtain ⟨_, hconn⟩ := open_of_busy hc hbusy (Purpose.entry_of_controls rfl)
        subst hconn
        exact h.confirmed u e hbusy (hdone raw rfl)
      · have hbefore : rfc ∈ rfcsOf u c.history := by
          rw [hrfcs]
          exact List.mem_cons_of_mem _ hmem
        exact h.acknowledged u rfc raw e hbefore hpurpose hresult
    · rw [others_rfcs hp hut] at hmem
      exact h.acknowledged u rfc raw e hmem hpurpose hresult

end End

section Effects

variable {call : SapCall}

/-- A call that stages an update is a write of an open transaction. -/
theorem write_of_stages (hc : Reachable c) (hbusy : ((hands c).locals t).busy = some (conn, p))
    (hsuits : p.Suits updates call) (hstages : workEffect updates call = .stages) :
    ∃ e, p = .write e ∧ (hands c).Open e ∧ conn = e.2.connection := by
  cases p with
  | write e =>
    obtain ⟨hopen, hconn⟩ := open_of_busy hc hbusy rfl
    exact ⟨e, rfl, hopen, hconn⟩
  | _ =>
    have heffect := hsuits
    simp only [Purpose.Suits, hstages] at heffect
    cases heffect

/-- The COMMIT or ROLLBACK that is issued for a transaction ends its unit of work. -/
theorem ends_of_controls (hsuits : p.Suits updates call) (he : p.controls = some e) :
    workEffect updates call = .commits ∨ workEffect updates call = .rollsBack := by
  cases p with
  | read | discovery | write e' => cases he
  | commit e' => exact .inl hsuits
  | rollback e' | expire e' | shutdown e' => exact .inr hsuits

theorem commit_of_commits (hsuits : p.Suits updates call)
    (hcommits : workEffect updates call = .commits) : ∃ e, p = .commit e := by
  cases p with
  | commit e => exact ⟨e, rfl⟩
  | _ =>
    have heffect := hsuits
    simp only [Purpose.Suits, hcommits] at heffect
    cases heffect <;> contradiction

/-- A call takes effect. -/
theorem Agrees.execute (h : Agrees updates c L committed) (hc : Reachable c)
    (hexec : L.executing conn = some call) :
    ∃ committed', Agrees updates c (L.execute (workEffect updates) conn call) committed' := by
  have hw := hands_reachable (@program_follows cfg) hc
  obtain ⟨t, p, hbusy, hsuits⟩ := h.running conn call hexec
  have hwhose : ∀ u q, ((hands c).locals u).busy = some (conn, q) → q = p := by
    intro u q hu
    obtain rfl := Hands.busy_unique hw hu hbusy
    rw [hbusy] at hu
    cases hu
    rfl
  have hquiet : (L.execute (workEffect updates) conn call).executing conn = none := by simp
  have hsame : ∀ k, k ≠ conn → (L.execute (workEffect updates) conn call).executing k =
      L.executing k := by
    intro k hk
    rw [Ledger.execute_executing, Ledger.drop_ne hk]
  have hnil : ∀ k, L.pending k = [] → (k = conn → workEffect updates call ≠ .stages) →
      (L.execute (workEffect updates) conn call).pending k = [] := by
    intro k hpending hstages
    by_cases hk : k = conn
    · subst hk
      exact Ledger.execute_pending_nil (hstages rfl) hpending
    · rw [Ledger.execute_pending_ne hk]
      exact hpending
  have hrunning : ∀ k call', (L.execute (workEffect updates) conn call).executing k = some call' →
      ∃ u q, ((hands c).locals u).busy = some (k, q) ∧ q.Suits updates call' := by
    intro k call' hk
    by_cases heq : k = conn
    · rw [heq, hquiet] at hk
      cases hk
    · rw [hsame k heq] at hk
      exact h.running k call' hk
  have hclear : ∀ k, Clear c k → (L.execute (workEffect updates) conn call).pending k = [] := by
    intro k hclear
    refine hnil k (h.clear k hclear) ?_
    rintro rfl hstages
    obtain ⟨e, _, hopen, hconn⟩ := write_of_stages hc hbusy hsuits hstages
    exact hclear.not_open hc hopen hconn.symm
  have hsettled : ∀ u e, Rfc.Settles e (rfcsOf u c.history) → (hands c).Open e →
      (L.execute (workEffect updates) conn call).pending e.2.connection = [] := by
    intro u e hsettles hopen
    refine hnil _ (h.settled u e hsettles hopen) fun hconn hstages => ?_
    -- nobody writes on a transaction whose end has been issued
    obtain ⟨e', rfl, hopen', hconn'⟩ := write_of_stages hc hbusy hsuits hstages
    obtain rfl := hopen'.unique hw hopen (hconn'.symm.trans hconn.symm)
    obtain ⟨q, hissued, hq⟩ := hsettles.issued
    refine (closed_of_issued hc hissued hq).live t ?_
    rw [(Hands.entitled hw t conn _ hbusy).2]
    rfl
  have hending : ∀ u e q, ((hands c).locals u).busy = some (e.2.connection, q) →
      q.controls = some e →
      (L.execute (workEffect updates) conn call).executing e.2.connection = none →
      (L.execute (workEffect updates) conn call).pending e.2.connection = [] := by
    intro u e q hu he hnone
    by_cases hk : e.2.connection = conn
    · subst hk
      obtain rfl := hwhose u q hu
      exact Ledger.execute_ends (ends_of_controls hsuits he)
    · rw [hsame _ hk] at hnone
      rw [Ledger.execute_pending_ne hk]
      exact h.ending u e q hu he hnone
  have hstaged : ∀ e, (hands c).Open e → (∀ p ∈ record Op.issues c.history, p.controls ≠ some e) →
      (∀ t, writeRaised t e c.history = false) →
      (L.execute (workEffect updates) conn call).staged (workEffect updates) e.2.connection =
        updatesFor updates e c.history := by
    intro e hopen hnone hfine
    rw [← h.staged e hopen hnone hfine]
    by_cases hk : e.2.connection = conn
    · subst hk
      have hentry := entry_of_busy hc hbusy hopen
      have hcontrols := hnone p (issued_of_busy hc hbusy)
      refine Ledger.staged_execute hexec ?_
      cases p with
      | read | discovery => cases hentry
      | write e' => exact hsuits
      | commit e' | rollback e' | expire e' | shutdown e' =>
        cases hentry
        exact absurd rfl hcontrols
    · exact Ledger.staged_congr (Ledger.execute_pending_ne hk) (hsame _ hk)
  have hcommitting : ∀ u e call', ((hands c).locals u).busy = some (e.2.connection, .commit e) →
      (L.execute (workEffect updates) conn call).executing e.2.connection = some call' →
      e.2.connection ≠ conn ∧ e ∉ committed ∧
        (L.execute (workEffect updates) conn call).pending e.2.connection =
          updatesFor updates e c.history := by
    intro u e call' hu hsome
    have hk : e.2.connection ≠ conn := by
      intro hk
      rw [hk, hquiet] at hsome
      cases hsome
    rw [hsame _ hk] at hsome
    rw [Ledger.execute_pending_ne hk]
    obtain ⟨hpending, hnot⟩ := h.committing u e call' hu hsome
    exact ⟨hk, hnot, hpending⟩
  by_cases hcommits : workEffect updates call = .commits
  · obtain ⟨e, rfl⟩ := commit_of_commits hsuits hcommits
    obtain ⟨_, rfl⟩ := open_of_busy hc hbusy (Purpose.entry_of_controls rfl)
    obtain ⟨hpending, hnot⟩ := h.committing t e call hbusy hexec
    refine ⟨e :: committed, hrunning, hclear, hsettled, hending, hstaged, ?_, ?_, ?_, ?_, ?_, ?_⟩
    · intro u e' call' hu hsome
      obtain ⟨hk, hnot', hpending'⟩ := hcommitting u e' call' hu hsome
      refine ⟨hpending', fun hmem => ?_⟩
      rcases List.mem_cons.mp hmem with rfl | hmem
      · exact hk rfl
      · exact hnot' hmem
    · intro u e' hu hnone
      by_cases hk : e'.2.connection = e.2.connection
      · rw [hk] at hu
        cases hwhose u _ hu
        exact List.mem_cons_self
      · rw [hsame _ hk] at hnone
        exact List.mem_cons_of_mem _ (h.confirmed u e' hu hnone)
    · exact List.nodup_cons.mpr ⟨hnot, h.nodup⟩
    · rw [List.map_cons, ← hpending, ← h.groups]
      simp only [Ledger.execute, hcommits, Ledger.drop]
    · intro e' hmem
      rcases List.mem_cons.mp hmem with rfl | hmem
      · exact issued_of_busy hc hbusy
      · exact h.issued e' hmem
    · intro u rfc raw e' hmem hpurpose hresult
      exact List.mem_cons_of_mem _ (h.acknowledged u rfc raw e' hmem hpurpose hresult)
  · refine ⟨committed, hrunning, hclear, hsettled, hending, hstaged, ?_, ?_, h.nodup, ?_, h.issued,
      h.acknowledged⟩
    · intro u e call' hu hsome
      obtain ⟨_, hnot, hpending⟩ := hcommitting u e call' hu hsome
      exact ⟨hpending, hnot⟩
    · intro u e hu hnone
      by_cases hk : e.2.connection = conn
      · rw [hk] at hu
        cases hwhose u _ hu
        exact absurd hsuits hcommits
      · rw [hsame _ hk] at hnone
        exact h.confirmed u e hu hnone
    · rw [Ledger.execute_durable hcommits]
      exact h.groups

end Effects

end Steps

end RfcMcp
