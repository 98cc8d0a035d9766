import RfcMcp.Durability.Sap
import RfcMcp.Durability.Settling
import RfcMcp.Reuse.NeverReused

namespace RfcMcp

open Framework Framework.System

section Issued

variable {cfg : AppSettings} {c : Run cfg} {t u : ℕ} {e : Entry} {conn : Conn} {p q : Purpose}

theorem does_of_performs {c' : Run cfg} {o : Op} {v : o.Res} (hp : Performs c t o v c') :
    Does cfg t c.shared o v c'.shared := by
  obtain ⟨_, hperform⟩ := hp
  exact Shared.perform_does hperform

theorem history_of_performs {c' : Run cfg} {o : Op} {v : o.Res} (hp : Performs c t o v c') :
    c'.history = .did t o v :: c.history := by
  cases hp
  rfl

theorem mem_issues_of_rfcsOf {R : Type} {h : History R} {rfc : Rfc} (hrfc : rfc ∈ rfcsOf t h) :
    rfc.purpose ∈ record Op.issues h := by
  induction h generalizing rfc with
  | nil => cases hrfc
  | cons ev h ih =>
    cases ev with
    | start u r => exact ih hrfc
    | did u o v =>
      have hold : ∀ rfc' ∈ rfcsOf t h, rfc'.purpose ∈ record Op.issues (.did u o v :: h) :=
        fun rfc' hmem => List.mem_append_right _ (ih hmem)
      simp only [rfcsOf] at hrfc
      split at hrfc
      · cases o with
        | rfcBegin conn p f kwargs =>
          rcases List.mem_cons.mp hrfc with rfl | hmem
          · exact List.mem_append_left _ List.mem_cons_self
          · exact hold rfc hmem
        | rfcEnd conn f kwargs =>
          cases hrfcs : rfcsOf t h with
          | nil =>
            rw [hrfcs] at hrfc
            cases hrfc
          | cons first rest =>
            rw [hrfcs] at hrfc hold
            rcases List.mem_cons.mp hrfc with rfl | hmem
            · exact hold first List.mem_cons_self
            · exact hold rfc (List.mem_cons_of_mem _ hmem)
        | _ => exact hold rfc hrfc
      · exact hold rfc hrfc

/-- The RFC that a thread is executing has been issued. -/
theorem issued_of_busy (h : Reachable c) (hbusy : ((hands c).locals t).busy = some (conn, p)) :
    p ∈ record Op.issues c.history := by
  have htracks := rfcsOf_tracks (@program_follows cfg) h t
  rw [hbusy] at htracks
  obtain ⟨rest, hrfcs, _⟩ := htracks
  have hmem : (⟨conn, p, none⟩ : Rfc) ∈ rfcsOf t c.history := by
    rw [hrfcs]
    exact List.mem_cons_self
  exact mem_issues_of_rfcsOf hmem

theorem mem_controls_of_issues {R : Type} {h : History R} (hp : p ∈ record Op.issues h)
    (he : p.controls = some e) : p ∈ record Op.controls h := by
  obtain ⟨t, o, v, hmem, hpick⟩ := mem_record.mp hp
  refine mem_record.mpr ⟨t, o, v, hmem, ?_⟩
  cases o with
  | rfcBegin conn q f kwargs =>
    obtain rfl := List.mem_singleton.mp hpick
    show p ∈ if p.controls.isSome then [p] else []
    rw [he]
    exact List.mem_cons_self
  | _ => cases hpick

/-- Once its COMMIT or ROLLBACK has been issued, nobody can write on a transaction any more. -/
theorem closed_of_issued (h : Reachable c) (hp : p ∈ record Op.issues c.history)
    (he : p.controls = some e) : (hands c).Closed e := by
  have hprog := @program_follows cfg
  obtain ⟨t, ht⟩ := exists_recordOf (mem_controls_of_issues hp he)
  exact Hands.controlled_closed (hands_reachable hprog h) ((mem_controls hprog h).mp ht) he

/-- Nobody is executing an RFC on a connection when another one begins there. -/
theorem begin_alone {c' : Run cfg} (h : Reachable c) {f : String} {kwargs : PyDict}
    (hp : Performs c t (.rfcBegin conn p f kwargs) () c') :
    ((hands c).locals u).busy ≠ some (conn, q) := by
  intro hu
  have hprog := @program_follows cfg
  have hallowed : ((hands c).locals t).allows cfg.limits (.rfcBegin conn p f kwargs) :=
    hp.allowed hprog h
  have hnone : ((hands c).locals t).busy = none := hallowed.2.1
  have hne : u ≠ t := by
    rintro rfl
    rw [hnone] at hu
    cases hu
  have hw := hands_reachable hprog (h.step (.run hp))
  have hhands : hands c' = (hands c).advance t (.rfcBegin conn p f kwargs) () c'.shared :=
    Crew.of_performs hp
  have hu' : ((hands c').locals u).busy = some (conn, q) := by
    rw [hhands, Crew.advance_ne _ hne]
    exact hu
  have ht' : ((hands c').locals t).busy = some (conn, p) := by
    rw [hhands, Crew.advance_self]
    exact Custody.afterBegin_busy _ conn p
  exact hne (Hands.busy_unique hw hu' ht')

end Issued

section Clear

variable {cfg : AppSettings} {c c' : Run cfg} {t u : ℕ} {e : Entry} {conn : Conn}

/-- The places where a connection must have nothing staged. -/
inductive Clear (c : Run cfg) (conn : Conn) : Prop
  | idle (h : conn ∈ c.shared.idle)
  | unopened (h : c.shared.nextConn ≤ conn)
  | borrowed {t : ℕ} {used : Bool} (h : ((hands c).locals t).holding = .borrowed conn used)
  | returning {t : ℕ} (h : ((hands c).locals t).holding = .returning conn)
      (haccepted : (worn c t).accepted = some conn)

/-- The connection of an open transaction is in none of these places. -/
theorem Clear.not_open (h : Reachable c) (hclear : Clear c conn) (hopen : (hands c).Open e) :
    e.2.connection ≠ conn := by
  rintro rfl
  have hw := hands_reachable (@program_follows cfg) h
  have haway := (Hands.away_of_open hopen).notIdle hw
  cases hclear with
  | idle hidle => exact haway.1 hidle
  | unopened hnext => exact Nat.lt_irrefl _ (Nat.lt_of_lt_of_le haway.2 hnext)
  | @borrowed t used hheld =>
    refine hopen.not_held hw (t := t) ?_
    rw [hheld]
    rfl
  | @returning t hheld _ =>
    refine hopen.not_held hw (t := t) ?_
    rw [hheld]
    rfl

theorem Clear.of_spawn {r : Request} (h : Clear (c.spawn r) conn) : Clear c conn := by
  have hhands : hands (c.spawn r) = { hands c with size := (hands c).size + 1 } :=
    Crew.of_spawn c r
  cases h with
  | idle h => exact .idle h
  | unopened h => exact .unopened h
  | borrowed h =>
    rw [hhands] at h
    exact .borrowed h
  | returning h haccepted =>
    rw [hhands] at h
    exact .returning h haccepted

/-- A connection that a thread comes to hold was idle, or has just been opened. -/
theorem borrowed_of_step {g : Custody} {s s' : Shared} {o : Op} {v : o.Res} {used : Bool}
    (hallowed : g.allows cfg.limits o) (hdoes : Does cfg t s o v s')
    (hheld : (g.after cfg.limits o v).holding = .borrowed conn used) :
    (∃ used', g.holding = .borrowed conn used') ∨ conn ∈ s.idle ∨ s.nextConn ≤ conn := by
  cases hmoves : o.movesConnections with
  | false =>
    rw [(after_sameConnections cfg.limits g v hmoves).holding] at hheld
    exact .inl ⟨used, hheld⟩
  | true =>
    cases hdoes
    case scanIdle f found rest closed hscan =>
      cases found with
      | none => cases hheld
      | some conn' =>
        cases hheld
        have hcount := scan_count hscan conn
        have hpos : 0 < s.idle.count conn := by
          rw [hcount, Option.toList_some, List.count_singleton_self]
          omega
        exact .inr (.inl (List.count_pos_iff.mp hpos))
    case opened =>
      cases hheld
      exact .inr (.inr (Nat.le_refl _))
    case rfcBegin conn' p f kwargs =>
      have hmay := hallowed.2.2
      cases p with
      | read | discovery =>
        cases hheld
        exact .inl hmay
      | _ => exact .inl ⟨used, hheld⟩
    case poolRelease conn' reusable luw => cases luw <;> cases hheld
    case closeConnection conn' =>
      simp only [Custody.after] at hheld
      split at hheld
      · cases hheld
      · exact .inl ⟨used, hheld⟩
    case demoConnection => exact hallowed.2.elim
    case swapIdle => exact .inl ⟨used, hheld⟩
    case openFailed => exact .inl ⟨used, hheld⟩
    case semTimeout => exact .inl ⟨used, hheld⟩
    all_goals first
      | cases hheld
      | cases hmoves

/-- A connection that a thread is about to put back is one that it had borrowed, or that of a
transaction whose end SAP has confirmed. -/
theorem returning_of_step {g : Custody} {k : Wear} {rfcs : List Rfc} {s s' : Shared} {o : Op}
    {v : o.Res} (hallowed : g.allows cfg.limits o) (hdoes : Does cfg t s o v s')
    (hsettles : settling.allows o rfcs)
    (hheld : (g.after cfg.limits o v).holding = .returning conn)
    (haccepted : (k.after o v).accepted = some conn) :
    (g.holding = .returning conn ∧ k.accepted = some conn) ∨
      (∃ used, g.holding = .borrowed conn used) ∨
      ∃ e, e ∈ g.removed ∧ e.2.connection = conn ∧ Rfc.Settles e rfcs := by
  by_cases hrelease : ∃ conn' reusable luw, o = .poolRelease conn' reusable luw
  · obtain ⟨conn', reusable, luw, rfl⟩ := hrelease
    have hmay := hallowed.2.2
    cases reusable with
    | false => cases haccepted
    | true =>
      cases luw with
      | none =>
        cases hheld
        exact .inr (.inl hmay)
      | some e =>
        cases hheld
        obtain ⟨_, rfl, hremoved, _⟩ := hmay
        exact .inr (.inr ⟨e, hremoved, rfl, hsettles⟩)
  · have hk : (k.after o v).accepted = k.accepted := by
      cases o with
      | rfcEnd _ _ _ => cases v <;> rfl
      | poolRelease conn' reusable luw => exact absurd ⟨_, _, _, rfl⟩ hrelease
      | _ => rfl
    rw [hk] at haccepted
    refine .inl ⟨?_, haccepted⟩
    cases hmoves : o.movesConnections with
    | false =>
      rw [(after_sameConnections cfg.limits g v hmoves).holding] at hheld
      exact hheld
    | true =>
      cases hdoes
      case poolRelease => exact absurd ⟨_, _, _, rfl⟩ hrelease
      case scanIdle f found rest closed hscan => cases found <;> cases hheld
      case rfcBegin conn' p f kwargs => cases p <;> first | exact hheld | cases hheld
      case closeConnection conn' =>
        simp only [Custody.after] at hheld
        split at hheld
        · cases hheld
        · exact hheld
      case demoConnection => exact hallowed.2.elim
      case swapIdle => exact hheld
      case openFailed => exact hheld
      case semTimeout => exact hheld
      all_goals first
        | cases hheld
        | cases hmoves

theorem idle_of_does {s s' : Shared} {o : Op} {v : o.Res} (hdoes : Does cfg t s o v s')
    (hidle : conn ∈ s'.idle) : conn ∈ s.idle ∨ o = .appendIdle conn := by
  cases hdoes
  case scanIdle f found rest closed hscan =>
    have hcount := scan_count hscan conn
    have hpos : 0 < rest.count conn := List.count_pos_iff.mpr hidle
    have hbefore : 0 < s.idle.count conn := by omega
    exact .inl (List.count_pos_iff.mp hbefore)
  case appendIdle conn' =>
    rcases List.mem_cons.mp hidle with rfl | hold
    · exact .inr rfl
    · exact .inl hold
  case swapIdle => cases hidle
  all_goals exact .inl hidle

theorem nextConn_le_of_does {s s' : Shared} {o : Op} {v : o.Res} (hdoes : Does cfg t s o v s') :
    s.nextConn ≤ s'.nextConn := by
  cases hdoes
  case opened => exact Nat.le_succ _
  case demoConnection => exact Nat.le_succ _
  all_goals exact Nat.le_refl _

/-- A connection gets into a clear place from another one, or by the release of a transaction whose
end SAP has confirmed. -/
theorem Clear.of_run {o : Op} {v : o.Res} (h : Reachable c) (hp : Performs c t o v c')
    (hclear : Clear c' conn) : Clear c conn ∨ ∃ e, e ∈ ((hands c).locals t).removed ∧
      e.2.connection = conn ∧ Rfc.Settles e (rfcsOf t c.history) := by
  have hallowed := hp.allowed (@program_follows cfg) h
  have hwear := hp.allowed (program_wears cfg) h
  have hsettles : settling.allows o (localOf settling t c.history) :=
    hp.allowed program_settles h
  rw [localOf_settling] at hsettles
  have hhands : hands c' = (hands c).advance t o v c'.shared := Crew.of_performs hp
  have hdoes := does_of_performs hp
  have hhistory := history_of_performs hp
  have hfrom : ((∃ used, ((hands c).locals t).holding = .borrowed conn used) ∨
      conn ∈ c.shared.idle ∨ c.shared.nextConn ≤ conn) → Clear c conn := by
    rintro (⟨used, hheld⟩ | hidle | hnext)
    · exact .borrowed hheld
    · exact .idle hidle
    · exact .unopened hnext
  cases hclear with
  | idle hidle =>
    rcases idle_of_does hdoes hidle with hold | rfl
    · exact .inl (.idle hold)
    · exact .inl (.returning hallowed.2 hwear)
  | unopened hnext => exact .inl (.unopened (Nat.le_trans (nextConn_le_of_does hdoes) hnext))
  | @borrowed u used hheld =>
    rw [hhands] at hheld
    by_cases hu : u = t
    · subst hu
      rw [Crew.advance_self] at hheld
      exact .inl (hfrom (borrowed_of_step hallowed hdoes hheld))
    · rw [Crew.advance_ne _ hu] at hheld
      exact .inl (.borrowed hheld)
  | @returning u hheld haccepted =>
    rw [hhands] at hheld
    rw [worn, hhistory] at haccepted
    by_cases hu : u = t
    · subst hu
      rw [Crew.advance_self] at hheld
      rw [localOf_did_self] at haccepted
      rcases returning_of_step hallowed hdoes hsettles hheld haccepted with
        ⟨hbefore, hk⟩ | hborrowed | hsettled
      · exact .inl (.returning hbefore hk)
      · exact .inl (hfrom (.inl hborrowed))
      · exact .inr hsettled
    · rw [Crew.advance_ne _ hu] at hheld
      rw [localOf_did_ne wear (Ne.symm hu)] at haccepted
      exact .inl (.returning hheld haccepted)

end Clear

end RfcMcp
