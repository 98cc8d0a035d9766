import RfcMcp.Custody.Commit
import RfcMcp.Durability.Places

namespace RfcMcp

open Framework Framework.System

variable {cfg : AppSettings} {c c' : Run cfg} {t u : ℕ} {e : Entry} {conn : Conn} {p q : Purpose}
  {updates : SapCall → Bool}

section Facts

/-- A transaction that is open after a step was open before it, or has just been registered. -/
theorem open_of_run {o : Op} {v : o.Res} (h : Reachable c) (hp : Performs c t o v c')
    (hopen : (hands c').Open e) : (hands c).Open e ∨ o.enters = some e := by
  have hallowed := hp.allowed (@program_follows cfg) h
  have hhands : hands c' = (hands c).advance t o v c'.shared := Crew.of_performs hp
  have hcount := Hands.openCount_advance (hands_reachable (@program_follows cfg) h) hp.lt hallowed
    (does_of_performs hp) (isEntry e)
  rw [hhands] at hopen
  by_cases henters : o.enters = some e
  · exact .inr henters
  · left
    have hzero : weight (isEntry e) o.enters = 0 := by
      cases hl : o.enters with
      | none => rfl
      | some e' =>
        have hne : e' ≠ e := fun he' => henters (by rw [hl, he'])
        simp [weight, isEntry, hne]
    unfold Hands.Open at hopen ⊢
    omega

theorem not_seen_of_register {id : TxId} {a : ActiveTransaction} (h : Reachable c)
    (hp : Performs c t (.register id a) () c') : ¬(hands c).Seen (id, a) :=
  Hands.not_seen (hands_reachable (@program_follows cfg) h) hp.lt
    (hp.allowed (@program_follows cfg) h) rfl

/-- The COMMIT or ROLLBACK of a transaction is the first one for it. -/
theorem control_new {f : String} {kwargs : PyDict} (h : Reachable c)
    (hp : Performs c t (.rfcBegin conn p f kwargs) () c') (he : p.controls = some e) :
    ∀ q ∈ record Op.issues c.history, q.controls ≠ some e := by
  intro q hq hqe
  have hprog := @program_follows cfg
  have h' := h.step (.run hp)
  have hhistory := history_of_performs hp
  have hone := Hands.controls_le_one (hands_reachable hprog h') e
  have hpos : 0 < (record Op.controls c.history).countP (Purpose.controlsEntry e) :=
    List.countP_pos_iff.mpr ⟨q, mem_controls_of_issues hq hqe, decide_eq_true hqe⟩
  have hnew : p.controlsEntry e = true := decide_eq_true he
  rw [← controls_all hprog h', ← countP_issues_controls, hhistory] at hone
  rw [← countP_issues_controls] at hpos
  simp only [record, Op.issues, List.countP_append, List.countP_cons, List.countP_nil, hnew,
    if_true] at hone
  omega

/-- No write on a transaction begins once its end has been issued. -/
theorem not_write_of_issued {f : String} {kwargs : PyDict} (h : Reachable c)
    (hp : Performs c t (.rfcBegin conn (.write e) f kwargs) () c')
    (hq : q ∈ record Op.issues c.history) : q.controls ≠ some e := by
  intro he
  have hallowed : ((hands c).locals t).allows cfg.limits (.rfcBegin conn (.write e) f kwargs) :=
    hp.allowed (@program_follows cfg) h
  have hcurrent : ((hands c).locals t).stage = .current e := hallowed.2.2.2
  refine (closed_of_issued h hq he).live t ?_
  rw [hcurrent]
  rfl

theorem updatesFor_unissued {R : Type} {h : History R} (hnone : .write e ∉ record Op.issues h) :
    updatesFor updates e h = [] := by
  induction h with
  | nil => rfl
  | cons ev h ih =>
    cases ev with
    | start u r => exact ih hnone
    | did u o v =>
      have hrest : .write e ∉ record Op.issues h :=
        fun hmem => hnone (List.mem_append_right _ hmem)
      rw [updatesFor_did, ih hrest]
      rintro conn f kwargs rfl
      exact hnone List.mem_cons_self

/-- Nobody is executing an RFC on a connection that its borrower has not used. -/
theorem not_busy_of_unused (h : Reachable c)
    (hheld : ((hands c).locals t).holding = .borrowed conn false) :
    ((hands c).locals u).busy ≠ some (conn, p) := by
  intro hbusy
  have hw := hands_reachable (@program_follows cfg) h
  have hconn : ((hands c).locals t).holding.conn = some conn := by rw [hheld]; rfl
  rcases Hands.busy_owner hw hbusy with hlent | ⟨e, hopen, rfl, _⟩
  · obtain rfl := Hands.held_unique hw hconn hlent
    have husing := Hands.entitled hw t conn p hbusy
    have hopen : ∀ e, conn = e.2.connection → ¬(hands c).Open e := by
      rintro e rfl hopen
      exact hopen.not_held hw hconn
    cases p with
    | read | discovery =>
      have hused : ((hands c).locals t).holding = .borrowed conn true := husing
      rw [hheld] at hused
      cases hused
    | write e =>
      refine hopen e husing.1 (Hands.live_open hw (t := t) ?_)
      rw [husing.2]
      rfl
    | commit e | rollback e | expire e | shutdown e =>
      exact hopen e husing.1 ((Hands.open_iff hw).mpr (.inr ⟨t, husing.2.1⟩))
  · exact hopen.not_held hw hconn

/-- The transaction of an RFC that is under way is open, and the RFC is on its connection. -/
theorem open_of_busy (h : Reachable c) (hbusy : ((hands c).locals t).busy = some (conn, p))
    (he : p.entry = some e) : (hands c).Open e ∧ conn = e.2.connection := by
  have hw := hands_reachable (@program_follows cfg) h
  have husing := Hands.entitled hw t conn p hbusy
  cases p with
  | read | discovery => cases he
  | write e' =>
    cases he
    refine ⟨Hands.live_open hw (t := t) ?_, husing.1⟩
    rw [husing.2]
    rfl
  | commit e' | rollback e' | expire e' | shutdown e' =>
    cases he
    exact ⟨(Hands.open_iff hw).mpr (.inr ⟨t, husing.2.1⟩), husing.1⟩

/-- An RFC on the connection of an open transaction is an RFC for the transaction. -/
theorem entry_of_busy (h : Reachable c)
    (hbusy : ((hands c).locals t).busy = some (e.2.connection, p)) (hopen : (hands c).Open e) :
    p.entry = some e := by
  have hw := hands_reachable (@program_follows cfg) h
  cases hp : p.entry with
  | some e' =>
    obtain ⟨hopen', hconn⟩ := open_of_busy h hbusy hp
    rw [hopen'.unique hw hopen hconn.symm]
  | none =>
    have husing := Hands.entitled hw t e.2.connection p hbusy
    have hheld : ((hands c).locals t).holding = .borrowed e.2.connection true := by
      cases p <;> first | cases hp; done | exact husing
    exact absurd (by rw [hheld]; rfl) (hopen.not_held hw (t := t))

theorem Purpose.entry_of_controls (he : p.controls = some e) : p.entry = some e := by
  cases p <;> first | cases he; done | exact he

end Facts

end RfcMcp
