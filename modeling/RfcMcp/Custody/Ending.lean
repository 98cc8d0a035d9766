import RfcMcp.Custody.History
import RfcMcp.Custody.Invoker
import RfcMcp.Custody.Ownership

namespace RfcMcp

open Framework Framework.System

section Hands

variable {cfg : AppSettings} {Request Reply : Type} {program : Request → Program Effects Reply}
  {w : Hands cfg program} {t : ℕ} {e : Entry}

theorem found_of_step {limits : ResultLimitPolicy} {g : Custody} {o : Op} (v : o.Res)
    (hfound : (g.after limits o v).found = some e) :
    g.found = some e ∨ o.enters = some e ∨
      ∃ id a, o = .lookup id ∧ e = (id, a) ∧ HEq v (some a) := by
  cases o with
  | lookup id =>
    cases v with
    | none => exact .inl hfound
    | some a =>
      cases hfound
      exact .inr (.inr ⟨id, a, rfl, rfl, HEq.rfl⟩)
  | register id a =>
    cases hfound
    exact .inr (.inl rfl)
  | rfcBegin conn p f kwargs => cases p <;> exact .inl hfound
  | poolRelease conn reusable luw => cases luw <;> exact .inl hfound
  | removeIfCurrent id a =>
    cases v <;> cases hs : g.stage <;>
      simp only [Custody.after, Custody.afterRemove, hs] at hfound <;> exact .inl hfound
  | closeConnection conn =>
    simp only [Custody.after] at hfound
    split at hfound <;> exact .inl hfound
  | tryAcquire _ | semAcquire | scanIdle | openConnection | removeIfExpired _ _ _ =>
    cases v <;> exact .inl hfound
  | _ => exact .inl hfound

/-- What a thread has found has been in the table. -/
theorem Hands.found_seen (h : w.Reachable) (ht : (w.locals t).found = some e) : w.Seen e := by
  refine induction (J := fun w => ∀ t e, (w.locals t).found = some e → w.Seen e) h ?_ ?_ ?_ t e ht
  · intro t e ht
    cases ht
  · intro w hstart ih t e ht
    exact (ih t e ht).start hstart
  · intro w u o v s hw hu hallowed hdoes ih t e ht
    by_cases htu : t = u
    · subst htu
      rw [Crew.advance_self] at ht
      rcases found_of_step v ht with hold | henters | ⟨id, a, rfl, rfl, hv⟩
      · exact (ih t e hold).advance hw hu hallowed hdoes
      · have hcount := Hands.seenCount_advance hw hu hallowed hdoes (isEntry e)
        rw [henters] at hcount
        simp [weight, isEntry] at hcount
        unfold Hands.Seen
        omega
      · have hmem := lookup_mem (hdoes.lookup_some (eq_of_heq hv))
        exact ((open_iff hw).mpr (.inl hmem)).seen.advance hw hu hallowed hdoes
    · rw [Crew.advance_ne w htu] at ht
      exact (ih t e ht).advance hw hu hallowed hdoes

/-- The thread came too late for `e`: it is about to find out, or it knows. -/
def Custody.Barred (g : Custody) (e : Entry) : Prop :=
  g.stage = .locked e.2.ref ∨ g.stage = .refused e.1 ∨ g.stage = .doomed e.1

theorem Custody.Barred.begin {limits : ResultLimitPolicy} {g : Custody} (hg : g.Barred e)
    {conn : Conn} {p : Purpose} {f : String} {kwargs : PyDict}
    (hallowed : g.allows limits (.rfcBegin conn p f kwargs)) : p.entry = none := by
  obtain ⟨_, _, hmay⟩ := hallowed
  have hstage : ∀ stage, g.stage = stage →
      stage = .locked e.2.ref ∨ stage = .refused e.1 ∨ stage = .doomed e.1 := by
    rintro stage rfl
    exact hg
  cases p with
  | read | discovery => rfl
  | write e' => rcases hstage _ hmay.2 with h | h | h <;> cases h
  | commit e' | rollback e' => rcases hstage _ hmay.2 with h | h | h <;> cases h
  | expire e' | shutdown e' => rcases hstage _ hmay.2 with h | h | h <;> cases h

/-- Coming too late for a transaction that has left the table is final. -/
theorem Hands.barred_advance (h : w.Reachable) {o : Op} {v : o.Res} {s : Shared}
    (hallowed : (w.locals t).allows cfg.limits o) (hdoes : Does cfg t w.shared o v s)
    (hseen : w.Seen e) (htable : e ∉ w.shared.table) (hbarred : (w.locals t).Barred e) :
    ((w.locals t).after cfg.limits o v).Barred e := by
  have hmoves := moves_of_allows hallowed v
  unfold Custody.Barred at hbarred ⊢
  have hknown : ∀ id a, (w.locals t).stage = .locked a.ref → (w.locals t).found = some (id, a) →
      (id, a) = e := by
    intro id a hlocked hfound
    rw [hlocked] at hbarred
    rcases hbarred with hb | hb | hb
    · exact ref_unique h (found_seen h hfound) hseen (Stage.locked.inj hb)
    · cases hb
    · cases hb
  generalize ((w.locals t).after cfg.limits o v).stage = stage at hmoves
  cases hmoves with
  | same => exact hbarred
  | locked hs | unknown hs | writing hs | wrote hs | failed hs | accepted hs _ | written hs
  | finished hs => rw [hs] at hbarred; rcases hbarred with hb | hb | hb <;> cases hb
  | gaveUp hs =>
    rcases hs with ⟨raw, hs⟩ | hs <;> rw [hs] at hbarred <;>
      rcases hbarred with hb | hb | hb <;> cases hb
  | @current id a hs hfound =>
    exfalso
    exact htable (hknown id a hs hfound ▸ lookup_mem (hdoes.isCurrent_true rfl))
  | @ended id a hs hfound =>
    exfalso
    exact htable (hknown id a hs hfound ▸ lookup_mem (hdoes.removeIfCurrent_true rfl))
  | @stale id a hs hfound | @late id a hs hfound =>
    obtain rfl := hknown id a hs hfound
    exact .inr (.inl rfl)
  | @refused ref id hs =>
    rw [hs] at hbarred
    rcases hbarred with hb | hb | hb <;> cases hb
    exact .inr (.inr rfl)

end Hands

section Runs

variable {cfg : AppSettings} {c : Run cfg} {t : ℕ} {e : Entry}

/-- Thread `t` executes no further RFC on any transaction, and its request ends with
`TransactionNotFoundError`. -/
structure TooLate (c : Run cfg) (t : ℕ) (id : TxId) (later : History Request) : Prop where
  silent : ∀ p ∈ recordOf Op.issues t later, p.entry = none
  refused : ∀ request reply, c.threads[t]? = some (request, .ret reply) →
    reply = .error (ExecutionInvoker.transactionNotFound cfg id)

/-- A thread that came too late does nothing more to a transaction. -/
theorem tooLate_of_barred {d : Run cfg} (hd : Reachable d) (hlead : Leads d c)
    {later : History Request} (hlater : c.history = later ++ d.history) (hseen : (hands d).Seen e)
    (htable : e ∉ d.shared.table) (hbarred : ((hands d).locals t).Barred e) :
    TooLate c t e.1 later := by
  have hprog := @program_follows cfg
  have hrun : (hands c).Seen e ∧ e ∉ c.shared.table ∧ ((hands c).locals t).Barred e ∧
      ∃ later, c.history = later ++ d.history ∧
        ∀ p ∈ recordOf Op.issues t later, p.entry = none := by
    refine leads_induction hprog
      (I := fun c => (hands c).Seen e ∧ e ∉ c.shared.table ∧ ((hands c).locals t).Barred e ∧
        ∃ later, c.history = later ++ d.history ∧
          ∀ p ∈ recordOf Op.issues t later, p.entry = none)
      hd ⟨hseen, htable, hbarred, [], rfl, by simp [recordOf]⟩ ?_ ?_ hlead
    · rintro c r _ hstart ⟨hseen, htable, hbarred, later, hlater, hsilent⟩
      have hspawn : hands (c.spawn r) = { hands c with size := (hands c).size + 1 } :=
        Crew.of_spawn c r
      rw [hspawn]
      exact ⟨hseen.start hstart, htable, hbarred, _ :: later, congrArg _ hlater, hsilent⟩
    · rintro c u o v c' _ hw hu hallowed hdoes hhands hhistory
        ⟨hseen, htable, hbarred, later, hlater, hsilent⟩
      rw [hhands]
      refine ⟨hseen.advance hw hu hallowed hdoes,
        Hands.notMem_advance hseen htable hw hu hallowed hdoes, ?_, .did u o v :: later, ?_, ?_⟩
      · by_cases hut : u = t
        · subst hut
          rw [Crew.advance_self]
          exact Hands.barred_advance hw hallowed hdoes hseen htable hbarred
        · rw [Crew.advance_ne _ (Ne.symm hut)]
          exact hbarred
      · rw [hhistory, hlater]
        rfl
      · by_cases hut : u = t
        · subst hut
          intro p hp
          rw [recordOf_did_self, List.mem_append] at hp
          rcases hp with hp | hp
          · cases o with
            | rfcBegin conn q f kwargs =>
              obtain rfl := List.mem_singleton.mp hp
              exact hbarred.begin hallowed
            | _ => cases hp
          · exact hsilent p hp
        · rw [recordOf_did_ne hut]
          exact hsilent
  obtain ⟨_, _, hbarred, later', hlater', hsilent⟩ := hrun
  obtain rfl : later' = later := List.append_cancel_right (hlater'.symm.trans hlater)
  refine ⟨hsilent, fun request reply hthread => ?_⟩
  have hfollows := (hd.leads hlead).disciplined (P := fun _ => custody cfg.limits) hprog t request _
    hthread
  have houtcome : ((hands c).locals t).Outcome cfg reply := hfollows
  obtain hidle | ⟨id, hdoomed, hreply⟩ | ⟨e', value, hwritten, _⟩ := houtcome.idle_or
  · rcases hbarred with hb | hb | hb <;> rw [hb] at hidle <;> cases hidle
  · rcases hbarred with hb | hb | hb <;> rw [hb] at hdoomed <;> cases hdoomed
    exact hreply
  · rcases hbarred with hb | hb | hb <;> rw [hb] at hwritten <;> cases hwritten

/-- How transactions end, in any run. -/
structure EndsOnce (c : Run cfg) : Prop where
  /-- An ID is removed from the table at most once. -/
  removed_once : ∀ id, (record Op.removes c.history).countP (hasId id) ≤ 1
  /-- Only who removed a transaction passes its connection to `release`, and not more often. -/
  released_by_remover : ∀ t e,
    (recordOf Op.releases t c.history).count e ≤ (recordOf Op.removes t c.history).count e
  /-- When it is done, it has. -/
  released_when_done : ∀ t request reply, c.threads[t]? = some (request, .ret reply) → ∀ e,
    (recordOf Op.releases t c.history).count e = (recordOf Op.removes t c.history).count e
  /-- While a transaction is registered and its connection not released, `release` gets that
  connection from who removed it, and on its behalf. -/
  released_by_nobody_else : ∀ (later earlier : History Request) t conn reusable luw e,
    c.history = later ++ .did t (.poolRelease conn reusable luw) () :: earlier →
    e ∈ record Op.registers earlier → e ∉ record Op.releases earlier →
    (conn = e.2.connection ↔ luw = some e ∧ e ∈ recordOf Op.removes t earlier)
  /-- There is at most one COMMIT or ROLLBACK. -/
  controlled_once : ∀ e, (record Op.controls c.history).countP (Purpose.controlsEntry e) ≤ 1
  controlled_by_remover : ∀ t p e, p ∈ recordOf Op.controls t c.history → p.controls = some e →
    e ∈ recordOf Op.removes t c.history
  /-- A lookup after the removal finds nothing, and that ends the request. -/
  looked_up_late : ∀ (later earlier : History Request) t e v,
    c.history = later ++ .did t (.lookup e.1) v :: earlier →
    e ∈ record Op.removes earlier → v = none ∧ TooLate c t e.1 later
  /-- So does taking the lock of a transaction that someone else has removed. -/
  locked_late : ∀ (later earlier : History Request) t e,
    c.history = later ++ .did t (.acquire (.active e.2.ref)) () :: earlier →
    e ∈ record Op.removes earlier → e ∉ recordOf Op.removes t earlier → TooLate c t e.1 later
  /-- A sweep skips a transaction that has been removed. -/
  swept_late : ∀ (later earlier : History Request) t e cutoff v,
    c.history = later ++ .did t (.removeIfExpired e.1 e.2 cutoff) v :: earlier →
    e ∈ record Op.removes earlier → v = false

theorem lookup_removed {b : Run cfg} (hb : Reachable b) (he : e ∈ record Op.removes b.history)
    {v : Option ActiveTransaction} {s : Shared} (hdoes : Does cfg t b.shared (.lookup e.1) v s) :
    v = none := by
  have hprog := @program_follows cfg
  have hw := hands_reachable hprog hb
  obtain ⟨hseen, htable⟩ := seen_of_mem_removes hprog hb he
  cases v with
  | none => rfl
  | some a =>
    have hmem : (e.1, a) ∈ b.shared.table := lookup_mem (hdoes.lookup_some rfl)
    have hopen := (Hands.open_iff hw).mpr (.inl hmem)
    have heq : (e.1, a) = e := Hands.id_unique hw hopen.seen hseen rfl
    rw [heq] at hmem
    exact absurd hmem htable

/-- Every transaction ends exactly once, whatever the interleaving and the exceptions. -/
theorem transactions_end_once (h : Reachable c) : EndsOnce c := by
  have hprog := @program_follows cfg
  have hw := hands_reachable hprog h
  have hcount : ∀ (l : List Entry) (e : Entry), l.count e = l.countP (isEntry e) := fun l e =>
    List.countP_congr fun e' _ => by simp [isEntry]
  constructor
  · intro id
    have hone := Hands.seenId_le_one hw id
    rw [removes_all hprog h]
    unfold Hands.seenCount Hands.openCount at hone
    omega
  · intro t e
    rw [hcount, hcount, releases_of hprog h, removes_of hprog h]
    omega
  · intro t request reply hthread e
    have hend := h.disciplined (P := fun _ => custody cfg.limits) hprog t request _ hthread
    obtain ⟨hsettled, _⟩ := hend
    have hremoved : ((hands c).locals t).removed = [] := hsettled.removed
    rw [hcount, hcount, releases_of hprog h, removes_of hprog h, hremoved]
    simp
  · intro later earlier t conn reusable luw e hh hregistered hreleased
    obtain ⟨b, d, hb, hp, _, rfl, _⟩ := h.performed hh
    have hwb := hands_reachable hprog hb
    obtain ⟨_, _, hmay⟩ := hp.allowed hprog hb
    have hopen : (hands b).Open e := by
      have hseen := (mem_registers hprog hb).mp hregistered
      rw [← countP_isEntry_pos, releases_all hprog hb] at hreleased
      unfold Hands.Seen Hands.seenCount at hseen
      unfold Hands.Open
      omega
    constructor
    · rintro rfl
      cases luw with
      | none =>
        obtain ⟨used, hholding⟩ := hmay
        have hheld : ((hands b).locals t).holding = .borrowed e.2.connection used := hholding
        exact absurd (by rw [hheld]; rfl) (hopen.not_held hwb (t := t))
      | some e' =>
        obtain ⟨_, hconn, hremoved, _⟩ := hmay
        have hopen' := (Hands.open_iff hwb).mpr (.inr ⟨t, hremoved⟩)
        obtain rfl := hopen.unique hwb hopen' hconn
        exact ⟨rfl, (mem_removes hprog hb).mpr (.inl hremoved)⟩
    · rintro ⟨rfl, _⟩
      exact hmay.2.1
  · intro e
    rw [controls_all hprog h]
    exact Hands.controls_le_one hw e
  · intro t p e hp he
    exact (mem_removes hprog h).mpr
      (Hands.removed_of_controlled hw ((mem_controls hprog h).mp hp) he)
  · intro later earlier t e v hh hremoved
    obtain ⟨b, d, hb, hp, hlead, rfl, hd⟩ := h.performed hh
    have hnone : v = none := by
      obtain ⟨_, hperform⟩ := hp
      have hdoes := Shared.perform_does hperform
      exact lookup_removed hb hremoved hdoes
    refine ⟨hnone, ?_⟩
    subst hnone
    have hseen := seen_of_mem_removes hprog (hb.step (.run hp)) (e := e) ?_
    · refine tooLate_of_barred (hb.step (.run hp)) hlead ?_ hseen.1 hseen.2 ?_
      · rw [hd]
        exact hh
      · have hhands : hands d = (hands b).advance t (.lookup e.1) none d.shared :=
          Crew.of_performs hp
        rw [hhands, Crew.advance_self]
        exact .inr (.inr rfl)
    · rw [hd]
      exact List.mem_append_right _ hremoved
  · intro later earlier t e hh hremoved hother
    obtain ⟨b, d, hb, hp, hlead, rfl, hd⟩ := h.performed hh
    have hwb := hands_reachable hprog hb
    obtain ⟨hseenb, _⟩ := seen_of_mem_removes hprog hb hremoved
    have hseen := seen_of_mem_removes hprog (hb.step (.run hp)) (e := e) ?_
    · refine tooLate_of_barred (hb.step (.run hp)) hlead ?_ hseen.1 hseen.2 ?_
      · rw [hd]
        exact hh
      · have hhands : hands d = (hands b).advance t (.acquire (.active e.2.ref)) () d.shared :=
          Crew.of_performs hp
        rw [hhands, Crew.advance_self]
        refine .inl ?_
        have hnone : ((hands b).locals t).removed.any (·.2.ref == e.2.ref) = false := by
          refine List.any_eq_false.mpr fun e' he' href => hother ?_
          have hseen' := ((Hands.open_iff hwb).mpr (.inr ⟨t, he'⟩)).seen
          obtain rfl := Hands.ref_unique hwb hseen' hseenb (by simpa using href)
          exact (mem_removes hprog hb).mpr (.inl he')
        show (((hands b).locals t).afterLock (.active e.2.ref)).stage = _
        simp [Custody.afterLock, hnone]
    · rw [hd]
      exact List.mem_append_right _ hremoved
  · intro later earlier t e cutoff v hh hremoved
    obtain ⟨b, d, hb, hp, hlead, rfl, hd⟩ := h.performed hh
    obtain ⟨_, htable⟩ := seen_of_mem_removes hprog hb hremoved
    obtain ⟨_, hperform⟩ := hp
    cases Shared.perform_does hperform with
    | expired hid => exact absurd (lookup_mem hid) htable
    | notExpired => rfl

/-- A write and the commit of its transaction. -/
theorem transactions_end_once_commit :
    ∃ c, execute (server sampleSettings).initial (sampleWrite 0 ++ sampleCommit 1) = some c ∧
      EndsOnce c := by
  have hrun : (execute (server sampleSettings).initial
      (sampleWrite 0 ++ sampleCommit 1)).isSome = true := by decide +kernel
  obtain ⟨c, hc⟩ := Option.isSome_iff_exists.mp hrun
  exact ⟨c, hc, transactions_end_once (execute_reachable hc)⟩

end Runs

end RfcMcp
