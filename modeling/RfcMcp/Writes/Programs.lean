import RfcMcp.Execution.Routine
import RfcMcp.Writes.State

namespace RfcMcp

open Framework Framework.Protocol

/-- Thread `t` runs alone from the shared state `s₀`. -/
abbrev solo (cfg : AppSettings) (t : ℕ) (s₀ : Shared) : Protocol Effects := alone (server cfg) t s₀

/-- `Φ` holds of what the thread has done and of the shared state. -/
abbrev Sure (cfg : AppSettings) (Φ : Trace Effects → Shared → Prop) (g : View Effects Shared) :
    Prop :=
  Knows (Y := server cfg) Φ g

section Rules

variable {α : Type} {cfg : AppSettings} {t : ℕ} {s₀ : Shared} {g : View Effects Shared}
  {Φ : Trace Effects → Shared → Prop}

theorem sure_op {o : Op} {A : o.Res → Trace Effects → Shared → Prop}
    {E : PyExc → View Effects Shared → Prop} (hg : Sure cfg Φ g)
    (h : ∀ trace s v s', Φ trace s → Does cfg t s o v s' → A v (⟨o, v⟩ :: trace) s') :
    (solo cfg t s₀).Meets (perform o) (fun v => Sure cfg (A v)) E g :=
  knows_perform hg fun trace s _ v s' hs hperform =>
    h trace s v s' hs (Shared.perform_does hperform)

/-- `Φ` is not affected by operations without an effect. -/
structure Steady (cfg : AppSettings) (t : ℕ) (Φ : Trace Effects → Shared → Prop) : Prop where
  quiet : ∀ trace s o v s', o.isEffect = false → Φ trace s → Does cfg t s o v s' →
    Φ (⟨o, v⟩ :: trace) s'

theorem sure_quiet (hsteady : Steady cfg t Φ) {o : Op} (ho : o.isEffect = false)
    {ok : o.Res → View Effects Shared → Prop} {err : PyExc → View Effects Shared → Prop}
    (hg : Sure cfg Φ g) (hok : ∀ v g', Sure cfg Φ g' → ok v g') :
    (solo cfg t s₀).Meets (perform o) ok err g := by
  refine Meets.mono (sure_op (A := fun _ => Φ) hg ?_) (fun v g' hg' => hok v g' hg')
    fun _ _ herr => herr
  intro trace s v s' hs hdoes
  exact hsteady.quiet trace s o v s' ho hs hdoes

theorem sure_withLock {A : α → Trace Effects → Shared → Prop}
    {E : PyExc → Trace Effects → Shared → Prop} (hsteady : Steady cfg t Φ)
    (hok : ∀ a, Steady cfg t (A a)) (herr : ∀ exc, Steady cfg t (E exc)) {l : LockId} {x : Act α}
    (hg : Sure cfg Φ g)
    (hx : ∀ g, Sure cfg Φ g → (solo cfg t s₀).Meets x (fun a => Sure cfg (A a))
      (fun exc => Sure cfg (E exc)) g) :
    (solo cfg t s₀).Meets (withLock l x) (fun a => Sure cfg (A a)) (fun exc => Sure cfg (E exc))
      g := by
  unfold withLock
  rw [meets_bind]
  refine sure_quiet hsteady rfl hg fun _ g hg => ?_
  rw [meets_tryFinally]
  refine (hx g hg).mono (fun a g hg => ?_) fun exc g hg => ?_
  · exact sure_quiet (hok a) rfl hg fun _ _ hg => hg
  · exact sure_quiet (herr exc) rfl hg fun _ _ hg => hg

end Rules

section Steady

variable {cfg : AppSettings} {t : ℕ} {s₀ : Shared} {e : Entry} {Φ Ψ : Trace Effects → Shared → Prop}

theorem Steady.and (hΦ : Steady cfg t Φ) (hΨ : Steady cfg t Ψ) :
    Steady cfg t fun trace s => Φ trace s ∧ Ψ trace s :=
  ⟨fun trace s o v s' ho h hdoes =>
    ⟨hΦ.quiet trace s o v s' ho h.1 hdoes, hΨ.quiet trace s o v s' ho h.2 hdoes⟩⟩

theorem steady_const (p : Prop) : Steady cfg t fun _ _ => p := ⟨fun _ _ _ _ _ _ h _ => h⟩

theorem steady_noOwn : Steady cfg t fun trace _ => NoOwn trace :=
  ⟨fun _ _ _ _ _ ho h _ => h.cons (quiet_issuesOwn ho)⟩

theorem steady_holds : Steady cfg t (Holds s₀ e) := ⟨fun _ _ _ _ _ ho h hdoes => h.quiet hdoes ho⟩

theorem steady_gone : Steady cfg t (Gone s₀ e) := ⟨fun _ _ _ _ _ ho h hdoes => h.quiet hdoes ho⟩

theorem steady_issued (effects : Trace Effects) :
    Steady cfg t fun trace _ => Issued e trace effects :=
  ⟨fun _ _ _ _ _ ho h _ => h.quiet ho⟩

theorem steady_active (id : TxId) (v : Option ActiveTransaction) :
    Steady cfg t fun _ s => s.active id = v := by
  constructor
  intro _ s _ _ s' ho h hdoes
  rw [Shared.active, (quiet_frame hdoes ho).1]
  exact h

theorem steady_closed (conn : Conn) : Steady cfg t fun _ s => conn ∈ s.closed := by
  constructor
  intro _ s _ _ s' ho h hdoes
  rw [(quiet_frame hdoes ho).2.2]
  exact h

theorem steady_creating {id : TxId} : Steady cfg t fun trace s => Creating s₀ trace s id := by
  constructor
  intro trace s o v s' ho h hdoes
  obtain ⟨htable, hlastUsed, _⟩ := quiet_frame hdoes ho
  refine ⟨?_, ?_, ?_, h.fresh, h.own.cons (quiet_issuesOwn ho)⟩
  · rw [htable, h.table, remaining, remaining, expiredIn_cons (quiet_expires ho)]
  · rw [hlastUsed]
    exact h.lastUsed
  · cases hdoes <;> first | exact h.nextRef | cases ho

theorem steady_reserved : Steady cfg t (Reserved s₀ e) := steady_noOwn.and steady_holds

theorem steady_written : Steady cfg t (Written s₀ e) := (steady_issued []).and steady_holds

theorem steady_discarded : Steady cfg t (Discarded s₀ e) :=
  (steady_issued _).and (steady_gone.and (steady_closed _))

end Steady

section Unwritten

variable {α : Type} {cfg : AppSettings} {t : ℕ} {s₀ : Shared} {g : View Effects Shared}
  (hids : (s₀.table.map (·.1)).Nodup)
include hids

theorem unwritten_steady : Steady cfg t (Unwritten s₀) :=
  ⟨fun _ _ o v _ ho h hdoes => h.step hids hdoes (by cases o <;> first | rfl | cases ho)⟩

theorem keeps_bystander {o : Op} (ho : o.isBystander = true) :
    (solo cfg t s₀).Keeps (Sure cfg (Unwritten s₀)) (perform o) :=
  ⟨fun _ hg => sure_op hg fun _ _ _ _ h hdoes => h.step hids hdoes ho⟩

theorem keeps_discovery {conn : Conn} {p : Purpose} {f : String} {kwargs : PyDict}
    (hp : p.isOwn = false) :
    (solo cfg t s₀).Keeps (Sure cfg (Unwritten s₀)) (conn.call p f kwargs) := by
  refine keeps_bind (keeps_bystander hids ?_) fun _ => ?_
  · rw [Op.isBystander, hp]
    rfl
  · exact keeps_bind (keeps_bystander hids rfl) fun r => keeps_ofExcept r

theorem keeps_area {o : Op} (ho : o.area ∈ [Area.lock, .borrow, .giveBack, .cache, .clock, .expiry,
    .find]) : (solo cfg t s₀).Keeps (Sure cfg (Unwritten s₀)) (perform o) := by
  refine keeps_bystander hids ?_
  cases o with
  | rfcBegin conn p f kwargs => cases p <;> first | rfl | simp [Op.area] at ho
  | newTransaction _ _ | tokenUrlsafe | register _ _ | removeIfCurrent _ _ | drain
  | setLastUsed _ _ => simp [Op.area] at ho
  | _ => rfl

theorem unwritten_lookups : Lookups cfg (solo cfg t s₀) (Sure cfg (Unwritten s₀)) :=
  lookups_of_areas (fun _ ho => keeps_area hids (mem_of_covers rfl ho))
    (fun record _ => keeps_bystander (o := .log record) hids rfl)
    fun _ _ _ => keeps_discovery hids rfl

theorem unwritten_expireTransactions : (solo cfg t s₀).Keeps (Sure cfg (Unwritten s₀))
    (ExecutionInvoker.expireTransactions cfg (connectionPool cfg)) :=
  keeps_expireTransactions_of (fun _ ho => keeps_area hids (mem_of_covers rfl ho))
    (fun record _ => keeps_bystander (o := .log record) hids rfl) fun _ => keeps_discovery hids rfl

end Unwritten

section Reserving

variable {cfg : AppSettings} {t : ℕ} {s₀ : Shared} {g : View Effects Shared}

theorem Unwritten.mem_table {id : TxId} {a : ActiveTransaction} {trace : Trace Effects} {s : Shared}
    (h : Unwritten s₀ trace s) (hactive : s.active id = some a) : (id, a) ∈ s₀.table := by
  have hmem := lookup_mem hactive
  rw [h.table] at hmem
  exact List.mem_of_mem_filter hmem

theorem holds_found {id : TxId} {a : ActiveTransaction} {trace : Trace Effects} {s : Shared}
    (h : Unwritten s₀ trace s) (hactive : s.active id = some a) :
    Reserved s₀ (id, a) trace s := by
  refine ⟨h.own, hactive, ?_, fun ref _ => by rw [h.lastUsed]⟩
  rw [h.table]
  rfl

theorem Creating.register {id : TxId} {a : ActiveTransaction} {trace : Trace Effects} {s : Shared}
    (h : Creating s₀ trace s id) :
    Reserved s₀ (id, a) (⟨.register id a, ()⟩ :: trace)
      { s with table := PyDict.set s.table id a } := by
  have hfresh : id ∉ (remaining s₀ trace).map (·.1) := by
    intro hmem
    obtain ⟨e, he, hid⟩ := List.mem_map.mp hmem
    exact h.fresh (List.mem_map.mpr ⟨e, List.mem_of_mem_filter he, hid⟩)
  have htable : PyDict.set s.table id a = remaining s₀ trace ++ [(id, a)] := by
    rw [h.table, set_of_notMem a hfresh]
  have hnone : (remaining s₀ trace).lookup id = none := by
    refine List.lookup_eq_none_iff.mpr fun e he => bne_iff_ne.mpr ?_
    rintro rfl
    exact hfresh (List.mem_map_of_mem he)
  refine ⟨h.own.cons rfl, ?_, ?_, h.lastUsed⟩
  · show (PyDict.set s.table id a).lookup id = some a
    rw [htable, List.lookup_append, hnone]
    simp
  · rw [others_cons rfl]
    show PyDict.erase (PyDict.set s.table id a) id = _
    rw [htable, others, PyDict.erase, List.filter_append]
    simp [PyDict.erase]

variable (hids : (s₀.table.map (·.1)).Nodup)
include hids

theorem sure_findTransaction (id : TxId) (hg : Sure cfg (Unwritten s₀) g) :
    (solo cfg t s₀).Meets (ExecutionInvoker.findTransaction cfg id)
      (fun e => Sure cfg fun trace s => Concerns s₀ e (some id) ∧ Reserved s₀ e trace s)
      (fun _ => Sure cfg (Unwritten s₀)) g := by
  have hsteady := @unwritten_steady cfg t s₀ hids
  unfold ExecutionInvoker.findTransaction
  rw [meets_bind]
  refine (sure_withLock (A := fun v trace s => Unwritten s₀ trace s ∧ s.active id = v)
    (E := fun _ _ _ => False) hsteady (fun v => hsteady.and (steady_active id v))
    (fun _ => steady_const _) hg fun g hg => ?_).mono (fun v g hg => ?_) fun exc g hg => ?_
  · refine sure_op hg fun trace s v s' h hdoes => ?_
    refine ⟨h.step hids hdoes rfl, ?_⟩
    cases hdoes
    rfl
  · cases v with
    | none => exact hg.mono fun _ _ h => h.1
    | some a =>
      have hfound : Sure cfg (fun trace s =>
          Concerns s₀ (id, a) (some id) ∧ Reserved s₀ (id, a) trace s) g :=
        hg.mono fun _ _ h => ⟨⟨rfl, h.1.mem_table h.2⟩, holds_found h.1 h.2⟩
      exact hfound
  · exact hg.mono fun _ _ h => h.elim

theorem sure_createTransaction (htokens : ∀ e ∈ s₀.table, e.1 ∈ s₀.tokens)
    (hg : Sure cfg (Unwritten s₀) g) :
    (solo cfg t s₀).Meets (ExecutionInvoker.createTransaction (connectionPool cfg))
      (fun e => Sure cfg fun trace s => Concerns s₀ e none ∧ Reserved s₀ e trace s)
      (fun _ => Sure cfg (Unwritten s₀)) g := by
  have hcheckout : (solo cfg t s₀).Keeps (Sure cfg (Unwritten s₀)) (ConnectionPool.checkout cfg) :=
    (within_checkout cfg).keeps fun o ho => keeps_area hids (mem_of_covers rfl ho)
  unfold ExecutionInvoker.createTransaction
  rw [meets_bind]
  refine (hcheckout.meets g hg).mono (fun conn g hg => ?_) fun _ _ hg => hg
  rw [meets_bind]
  refine (sure_op (A := fun id trace s => Creating s₀ trace s id) hg
    fun trace s id s' h hdoes => ?_).mono (fun id g hg => ?_) fun _ _ hf => hf
  · cases hdoes with
    | tokenUrlsafe hnew =>
      refine ⟨?_, fun ref _ => by rw [h.lastUsed], Nat.le_of_eq h.nextRef.symm, ?_, h.own.cons rfl⟩
      · show s.table = _
        rw [h.table, remaining, remaining, expiredIn_cons rfl]
      · intro hmem
        obtain ⟨e, he, rfl⟩ := List.mem_map.mp hmem
        rw [h.tokens] at hnew
        exact hnew (htokens e he)
  rw [meets_bind]
  refine sure_quiet steady_creating rfl hg fun now g hg => ?_
  rw [meets_bind]
  refine (sure_op (A := fun _ trace s => Creating s₀ trace s id) hg
    fun trace s ref s' h hdoes => ?_).mono (fun ref g hg => ?_) fun _ _ hf => hf
  · cases hdoes with
    | newTransaction =>
      refine ⟨?_, fun ref href => ?_, Nat.le_succ_of_le h.nextRef, h.fresh, h.own.cons rfl⟩
      · show s.table = _
        rw [h.table, remaining, remaining, expiredIn_cons rfl]
      · have hne : ref ≠ s.nextRef := Nat.ne_of_lt (Nat.lt_of_lt_of_le href h.nextRef)
        show Function.update s.lastUsed s.nextRef now ref = _
        rw [Function.update_of_ne hne, h.lastUsed ref href]
  dsimp only
  rw [meets_bind]
  have hsteady : Steady cfg t fun trace s =>
      Concerns s₀ (id, ⟨ref, conn⟩) none ∧ Reserved s₀ (id, ⟨ref, conn⟩) trace s :=
    (steady_const _).and steady_reserved
  refine (sure_withLock (E := fun _ _ _ => False) steady_creating (fun _ => hsteady)
    (fun _ => steady_const _) hg fun g hg => ?_).mono (fun _ g hg => ?_) fun exc g hg => ?_
  · refine sure_op hg fun trace s v s' h hdoes => ?_
    cases hdoes
    exact ⟨h.fresh, h.register⟩
  · rw [meets_bind]
    exact sure_quiet (o := .log _) hsteady rfl hg fun _ g hg => hg
  · exact hg.mono fun _ _ h => h.elim

end Reserving

section Writing

variable {cfg : AppSettings} {t : ℕ} {s₀ : Shared} {g : View Effects Shared} {e : Entry}

theorem sure_callOnConnection (f mode : String) (kwargs : PyDict) (id : Option TxId)
    (hg : Sure cfg (Reserved s₀ e) g) :
    (solo cfg t s₀).Meets
      (ExecutionInvoker.callOnConnection cfg e.2.connection (.write e) f kwargs mode id)
      (fun _ => Sure cfg (Written s₀ e)) (fun _ => Sure cfg (Written s₀ e)) g := by
  unfold ExecutionInvoker.callOnConnection Conn.call
  rw [meets_bind, meets_tryExcept, meets_bind]
  refine (sure_op (A := fun _ => Written s₀ e) hg fun trace s v s' h hdoes => ?_).mono
    (fun _ g hg => ?_) fun _ _ hf => hf
  · cases hdoes
    refine ⟨⟨trace, [], f, kwargs, rfl, h.1, rfl⟩, h.2.active, ?_, h.2.lastUsed⟩
    rw [others_cons rfl]
    exact h.2.table
  · rw [meets_bind]
    refine sure_quiet steady_written rfl hg fun r g hg => ?_
    rw [meets_ofExcept]
    refine ⟨fun result _ => ?_, fun exc _ => ?_⟩
    · rw [meets_bind]
      exact sure_quiet (o := .log _) steady_written rfl hg fun _ g hg => hg
    · rw [meets_bind]
      exact sure_quiet (o := .log _) steady_written rfl hg fun _ g hg => hg

theorem sure_applyResultLimits (f mode : String) (result : PyDict)
    (hg : Sure cfg (Written s₀ e) g) :
    (solo cfg t s₀).Meets (ExecutionInvoker.applyResultLimits cfg f mode result)
      (fun _ => Sure cfg (Written s₀ e)) (fun _ => Sure cfg (Written s₀ e)) g := by
  unfold ExecutionInvoker.applyResultLimits
  split
  · exact hg
  · rw [meets_bind]
    exact sure_quiet (o := .log _) steady_written rfl hg fun _ g hg => hg
  · exact hg

/-- The transaction of a failed write is registered, so that the discard takes it out. -/
theorem sure_removeIfCurrent (hg : Sure cfg (Written s₀ e) g) :
    (solo cfg t s₀).Meets (ExecutionInvoker.removeIfCurrent e)
      (fun removed => Sure cfg fun trace s => removed = true ∧
        Issued e trace [⟨.removeIfCurrent e.1 e.2, true⟩] ∧ Gone s₀ e trace s)
      (fun _ => Sure cfg fun _ _ => False) g := by
  refine sure_withLock steady_written (fun removed => (steady_const _).and
    ((steady_issued _).and steady_gone)) (fun _ => steady_const _) hg fun g hg => ?_
  refine sure_op hg fun trace s removed s' h hdoes => ?_
  cases hdoes with
  | notCurrent hnot => exact absurd h.2.active hnot
  | removed _ =>
    refine ⟨rfl, h.1.cons, ?_, h.2.lastUsed⟩
    rw [others_cons rfl]
    exact h.2.table

/-- Closing the connection of the discarded transaction, and returning its permit. -/
theorem sure_release (hg : Sure cfg (fun trace s =>
    Issued e trace [⟨.removeIfCurrent e.1 e.2, true⟩] ∧ Gone s₀ e trace s) g) :
    (solo cfg t s₀).Meets (ConnectionPool.release e.2.connection false (some e))
      (fun _ => Sure cfg (Discarded s₀ e)) (fun _ => Sure cfg fun _ _ => False) g := by
  unfold ConnectionPool.release
  rw [meets_bind]
  refine sure_quiet ((steady_issued _).and steady_gone) rfl hg fun _ g hg => ?_
  rw [if_neg Bool.false_ne_true, meets_tryFinally]
  refine (sure_op (o := .closeConnection e.2.connection) (A := fun _ trace s =>
    Issued e trace [⟨.closeConnection e.2.connection, ()⟩, ⟨.removeIfCurrent e.1 e.2, true⟩] ∧
      Gone s₀ e trace s ∧ e.2.connection ∈ s.closed) (E := fun _ => Sure cfg fun _ _ => False)
    hg fun trace s v s' h hdoes => ?_).mono (fun _ g hg => ?_) fun exc g hg => ?_
  · cases hdoes
    refine ⟨h.1.cons, ⟨?_, h.2.lastUsed⟩, List.mem_cons_self⟩
    rw [others_cons rfl]
    exact h.2.table
  · refine sure_op hg fun trace s v s' h hdoes => ?_
    cases hdoes
    refine ⟨h.1.cons, ⟨?_, h.2.1.lastUsed⟩, h.2.2⟩
    rw [others_cons rfl]
    exact h.2.1.table
  · exact meets_impossible hg

theorem sure_discardTransaction (hg : Sure cfg (Written s₀ e) g) :
    (solo cfg t s₀).Meets (ExecutionInvoker.discardTransaction (connectionPool cfg) e)
      (fun _ => Sure cfg (Discarded s₀ e)) (fun _ => Sure cfg fun _ _ => False) g := by
  unfold ExecutionInvoker.discardTransaction
  rw [meets_bind]
  refine (sure_removeIfCurrent hg).mono (fun removed g hg => ?_) fun _ _ hg => hg
  cases removed with
  | false => exact hg.mono fun _ _ h => absurd h.1 Bool.false_ne_true
  | true =>
    rw [if_pos rfl, meets_bind]
    refine (sure_release (hg.mono fun _ _ h => h.2)).mono (fun _ g hg => ?_) fun _ _ hg => hg
    exact sure_quiet (o := .log _) steady_discarded rfl hg fun _ g hg => hg

theorem sure_writeLocked (f mode : String) (kwargs : PyDict) (hg : Sure cfg (Reserved s₀ e) g) :
    (solo cfg t s₀).Meets
      (ExecutionInvoker.writeLocked cfg (connectionPool cfg) f kwargs mode e)
      (fun _ => Sure cfg fun _ _ => True) (fun _ => Sure cfg (Discarded s₀ e)) g := by
  have hdiscard : ∀ (ok : PyValue → View Effects Shared → Prop) (exc : PyExc)
      (g : View Effects Shared), Sure cfg (Written s₀ e) g → (solo cfg t s₀).Meets
        (do
          ExecutionInvoker.discardTransaction (connectionPool cfg) e
          (Action.raise exc : Act PyValue))
        ok (fun _ => Sure cfg (Discarded s₀ e)) g := by
    intro ok exc g hg
    rw [meets_bind]
    refine (sure_discardTransaction hg).mono (fun _ g hg => hg) fun _ g hg => ?_
    exact hg.mono fun _ _ h => h.elim
  unfold ExecutionInvoker.writeLocked ExecutionInvoker.isCurrentTransaction
  rw [meets_bind]
  refine (sure_withLock (A := fun current trace s => current = true ∧ Reserved s₀ e trace s)
    (E := fun _ _ _ => False) steady_reserved (fun _ => (steady_const _).and steady_reserved)
    (fun _ => steady_const _) hg fun g hg => ?_).mono (fun current g hg => ?_) fun exc g hg => ?_
  · refine sure_op hg fun trace s current s' h hdoes => ?_
    have hreserved := steady_reserved.quiet trace s _ current s' rfl h hdoes
    cases hdoes
    exact ⟨decide_eq_true h.2.active, hreserved⟩
  · cases current with
    | false => exact hg.mono fun _ _ h => absurd h.1 Bool.false_ne_true
    | true =>
      rw [if_neg (by simp), meets_bind, meets_tryExcept, meets_bind]
      refine (sure_callOnConnection f mode kwargs _ (hg.mono fun _ _ h => h.2)).mono
        (fun raw g hg => ?_) fun exc g hg => hdiscard _ exc g hg
      refine (sure_applyResultLimits f mode raw hg).mono (fun v g hg => ?_)
        fun exc g hg => hdiscard _ exc g hg
      rw [meets_bind]
      refine sure_quiet steady_written rfl hg fun now g hg => ?_
      rw [meets_bind]
      exact sure_op (A := fun _ _ _ => True) hg fun _ _ _ _ _ _ => trivial
  · exact hg.mono fun _ _ h => h.elim

/-- How a failing write leaves the shared state. -/
def WriteFailed (s₀ : Shared) (id : Option TxId) (trace : Trace Effects) (s : Shared) : Prop :=
  Unwritten s₀ trace s ∨ ∃ e, Concerns s₀ e id ∧ Discarded s₀ e trace s

variable (hids : (s₀.table.map (·.1)).Nodup) (htokens : ∀ e ∈ s₀.table, e.1 ∈ s₀.tokens)
include hids htokens

theorem sure_write (f : String) (parameters : PyDict) (id : Option TxId)
    (hg : Sure cfg (Unwritten s₀) g) :
    (solo cfg t s₀).Meets (ExecutionInvoker.write cfg (connectionPool cfg) f parameters id)
      (fun _ => Sure cfg fun _ _ => True) (fun _ => Sure cfg (WriteFailed s₀ id)) g := by
  have hlookups := @unwritten_lookups cfg t s₀ hids
  have hunwritten : ∀ g : View Effects Shared, Sure cfg (Unwritten s₀) g →
      Sure cfg (WriteFailed s₀ id) g := fun g hg => hg.mono fun _ _ h => .inl h
  unfold ExecutionInvoker.write
  rw [meets_bind]
  refine ((hlookups.authorize _ _ _ _ _).meets g hg).mono (fun _ g hg => ?_)
    fun _ g hg => hunwritten g hg
  rw [meets_bind]
  refine ((hlookups.getInterface f).meets g hg).mono (fun interface g hg => ?_)
    fun _ g hg => hunwritten g hg
  rw [meets_bind]
  refine ((keeps_ofExcept _).meets g hg).mono (fun callKwargs g hg => ?_)
    fun _ g hg => hunwritten g hg
  have hreserve : (solo cfg t s₀).Meets
      (ExecutionInvoker.getOrCreateTransaction cfg (connectionPool cfg) id)
      (fun e => Sure cfg fun trace s => Concerns s₀ e id ∧ Reserved s₀ e trace s)
      (fun _ => Sure cfg (Unwritten s₀)) g := by
    cases id with
    | some id => exact sure_findTransaction hids id hg
    | none => exact sure_createTransaction hids htokens hg
  rw [meets_bind]
  refine hreserve.mono (fun e g hg => ?_) fun _ g hg => hunwritten g hg
  rw [meets_bind]
  by_cases hconcerns : Concerns s₀ e id
  · refine (sure_withLock steady_reserved (fun _ => steady_const True) (fun _ => steady_discarded)
      (hg.mono fun _ _ h => h.2) fun g hg => sure_writeLocked f "write" callKwargs hg).mono
      (fun _ g hg => hg) fun _ g hg => ?_
    exact hg.mono fun _ _ h => .inr ⟨e, hconcerns, h⟩
  · have hnever : Sure cfg (fun _ _ => False) g := hg.mono fun _ _ h => hconcerns h.1
    rw [← meets_bind]
    exact meets_impossible hnever

theorem follows_write (f : String) (parameters : PyDict) (id : Option TxId) :
    (solo cfg t s₀).Follows
      (fun reply : Except PyExc Answer => Sure cfg fun trace s =>
        ∀ exc, reply = .error exc → WriteFailed s₀ id trace s)
      (Request.program cfg (connectionPool cfg) (.callTransactional f parameters "write" id))
      (solo cfg t s₀).start := by
  have hstart : Unwritten s₀ [] s₀ := by
    refine ⟨?_, rfl, rfl, rfl, nofun⟩
    simp [remaining, expiredIn]
  have hmeets : (solo cfg t s₀).Meets
      (Request.program cfg (connectionPool cfg) (.callTransactional f parameters "write" id))
      (fun _ => Sure cfg fun _ _ => True) (fun _ => Sure cfg (WriteFailed s₀ id))
      (solo cfg t s₀).start := by
    show (solo cfg t s₀).Meets (_ >>= _) _ _ _
    unfold ExecutionInvoker.callTransactional
    rw [meets_bind, meets_bind]
    refine ((unwritten_expireTransactions hids).meets _ (knows_start hstart)).mono
      (fun _ g hg => ?_) fun _ g hg => hg.mono fun _ _ h => .inl h
    rw [if_neg (by decide), if_neg (by decide)]
    exact (sure_write hids htokens f parameters id hg).mono (fun _ g hg => hg) fun _ g hg => hg
  refine Follows.mono hmeets fun reply g hg => ?_
  cases reply with
  | ok answer => exact fun _ _ exc hexc => by cases hexc
  | error exc => exact fun s hs _ _ => hg s hs

end Writing

end RfcMcp
