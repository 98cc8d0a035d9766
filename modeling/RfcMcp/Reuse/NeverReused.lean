import RfcMcp.Reuse.Failure

namespace RfcMcp

open Framework Framework.System

variable {cfg : AppSettings} {c : Run cfg} {t : ℕ} {conn : Conn}

/-- What thread `t` remembers of failures. -/
def worn (c : Run cfg) (t : ℕ) : Wear := localOf wear t c.history

/-- A connection on which an RFC has raised is closed, or with the thread that saw the failure. -/
def FailuresKept (c : Run cfg) : Prop :=
  ∀ t conn, RaisedOn conn t c.history → conn ∈ c.shared.closed ∨
    ((hands c).locals t).Keeper (worn c t) (fun e => writeRaised t e c.history) conn

theorem closed_of_does {s s' : Shared} {o : Op} {v : o.Res} (hdoes : Does cfg t s o v s')
    (h : conn ∈ s.closed) : conn ∈ s'.closed := by
  cases hdoes
  case scanIdle => exact List.mem_append_right _ h
  case closeConnection => exact List.mem_cons_of_mem _ h
  all_goals exact h

theorem writeRaised_did {R : Type} {o : Op} {v : o.Res} (hrfc : o.isRfc = false) (e : Entry)
    (h : History R) : writeRaised t e (.did t o v :: h) = writeRaised t e h := by
  have hsame : rfcsOf t (.did t o v :: h) = rfcsOf t h := by
    rw [rfcsOf, if_pos rfl]
    cases o with
    | rfcBegin _ _ _ _ | rfcEnd _ _ _ => cases hrfc
    | _ => rfl
  unfold writeRaised
  rw [hsame]

/-- The write that is under way is the newest RFC. -/
theorem writeRaised_end {R : Type} {h : History R} {e : Entry} {f : String} {kwargs : PyDict}
    {exc : PyExc} (htracks : Rfc.Tracks (some (conn, .write e)) (rfcsOf t h)) :
    writeRaised t e (.did t (.rfcEnd conn f kwargs) (.error exc) :: h) = true := by
  obtain ⟨rest, hrfcs, _⟩ := htracks
  unfold writeRaised
  rw [rfcsOf, if_pos rfl, hrfcs]
  simp [Op.onRfcs, Rfc.raised]

theorem failures_kept_run (h : ReachableWhere discardFinds c) (ih : FailuresKept c) {o : Op}
    {v : o.Res} {c' : Run cfg} (hok : discardFinds c t o = true) (hp : Performs c t o v c') :
    FailuresKept c' := by
  have hreach := h.reachable
  have hcustody := hp.allowed (@program_follows cfg) hreach
  have hwear := hp.allowed (program_wears cfg) hreach
  have hhands : hands c' = (hands c).advance t o v c'.shared := Crew.of_performs hp
  have htracks := rfcsOf_tracks (@program_follows cfg) hreach t
  have hentitled := Hands.entitled (hands_reachable (@program_follows cfg) hreach) t
  obtain ⟨hthread, hperform⟩ := hp
  have hdoes := Shared.perform_does hperform
  intro u conn ⟨f, kwargs, exc, hraised⟩
  rw [hhands]
  unfold worn
  by_cases htu : t = u
  · subst htu
    rw [Crew.advance_self, localOf_did_self]
    cases List.mem_cons.mp hraised with
    | inl hnow =>
      cases hnow
      refine .inr (hentitled.keeper _ hcustody fun e hbusy => ?_)
      change ((hands c).locals t).busy = _ at hbusy
      rw [hbusy] at htracks
      exact writeRaised_end htracks
    | inr hpast =>
      cases ih t conn ⟨f, kwargs, exc, hpast⟩ with
      | inl hclosed => exact .inl (closed_of_does hdoes hclosed)
      | inr hkeeper =>
        refine hkeeper.step hcustody hwear hdoes ?_ fun hrfc => ?_
        · rintro id a rfl hwrite
          simp only [discardFinds, hwrite, Bool.not_true, Bool.false_or, decide_eq_true_eq] at hok
          exact hok
        · funext e
          exact writeRaised_did hrfc e c.history
  · rw [Crew.advance_ne _ (Ne.symm htu), localOf_did_ne wear htu]
    have hpast : .did u (.rfcEnd conn f kwargs) (.error exc) ∈ c.history := by
      cases List.mem_cons.mp hraised with
      | inl hnow => cases hnow; exact absurd rfl htu
      | inr hpast => exact hpast
    cases ih u conn ⟨f, kwargs, exc, hpast⟩ with
    | inl hclosed => exact .inl (closed_of_does hdoes hclosed)
    | inr hkeeper =>
      refine .inr ?_
      have hsame : ∀ e, writeRaised u e (.did t o v :: c.history) = writeRaised u e c.history := by
        intro e
        unfold writeRaised
        rw [rfcsOf, if_neg htu]
      simp only [hsame]
      exact hkeeper

theorem failures_kept (h : ReachableWhere discardFinds c) : FailuresKept c := by
  induction h with
  | init =>
    intro t conn ⟨f, kwargs, exc, hraised⟩
    cases hraised
  | @start c _ r ih =>
    intro t conn ⟨f, kwargs, exc, hraised⟩
    have hpast := (List.mem_cons.mp hraised).resolve_left nofun
    have hhands : hands (c.spawn r) = { hands c with size := (hands c).size + 1 } :=
      Crew.of_spawn c r
    rw [hhands]
    exact ih t conn ⟨f, kwargs, exc, hpast⟩
  | run hc hok hp ih => exact failures_kept_run hc ih hok hp

theorem away_of_raised (h : ReachableWhere discardFinds c) (hraised : RaisedOn conn t c.history) :
    (hands c).Away conn := by
  cases failures_kept h t conn hraised with
  | inl hclosed => exact Hands.away_of_closed hclosed
  | inr hkeeper =>
    exact Hands.away_of_keeper (hands_reachable (@program_follows cfg) h.reachable) hkeeper

/-- What becomes of the connections on which an RFC has raised. -/
structure NeverReused (c : Run cfg) : Prop where
  /-- When the request that saw the failure is done, the pool has closed the connection. -/
  closed : ∀ t conn request reply, RaisedOn conn t c.history →
    c.threads[t]? = some (request, .ret reply) → conn ∈ c.shared.closed
  notIdle : ∀ t conn, RaisedOn conn t c.history → conn ∉ c.shared.idle
  /-- From the failure on nobody puts it back on the idle list, -/
  notReturned : ∀ (later earlier : History Request) t u conn,
    c.history = later ++ .did u (.appendIdle conn) () :: earlier → ¬RaisedOn conn t earlier
  /-- and no checkout gets it. -/
  notHandedOut : ∀ (later earlier : History Request) t u conn o v,
    c.history = later ++ .did u o v :: earlier → o.handsOut v = some conn →
      ¬RaisedOn conn t earlier

theorem handsOut_cases {s s' : Shared} {o : Op} {v : o.Res} (hdoes : Does cfg t s o v s')
    (hout : o.handsOut v = some conn) : conn ∈ s.idle ∨ conn = s.nextConn := by
  cases hdoes
  case scanIdle f found rest closed hscan =>
    change found = some conn at hout
    have hcount := scan_count hscan conn
    rw [hout] at hcount
    simp only [Option.toList_some, List.count_singleton_self] at hcount
    have hpos : 0 < s.idle.count conn := by omega
    exact .inl (List.count_pos_iff.mp hpos)
  case opened => exact .inr (Option.some.inj hout).symm
  all_goals cases hout

/-- In every run in which discards find their transactions, failed connections are never reused. -/
theorem never_reused (h : ReachableWhere discardFinds c) : NeverReused c := by
  have hprog := @program_follows cfg
  constructor
  · intro t conn request reply hraised hthread
    have hfollows := h.reachable.disciplined (P := fun _ => custody cfg.limits) hprog t request _
      hthread
    have houtcome : ((hands c).locals t).Outcome cfg reply := hfollows
    have hsettled := houtcome.1
    cases failures_kept h t conn hraised with
    | inl hclosed => exact hclosed
    | inr hkeeper =>
      exfalso
      cases hkeeper with
      | borrowed _ _ hheld =>
        rw [hsettled.holding] at hheld
        cases hheld
      | removed _ _ hremoved _ =>
        rw [hsettled.removed] at hremoved
        cases hremoved
      | failed _ _ hstage _ _ =>
        rcases houtcome.idle_or with hs | ⟨_, hs, _⟩ | ⟨_, _, hs, _⟩ <;> rw [hstage] at hs <;>
          cases hs
      | returning _ hheld =>
        rw [hsettled.holding] at hheld
        cases hheld
  · intro t conn hraised
    have hw := hands_reachable hprog h.reachable
    exact ((away_of_raised h hraised).notIdle hw).1
  · intro later earlier t u conn hh hraised
    obtain ⟨b, d, hb, hp, hd, rfl⟩ := h.performed hh
    obtain ⟨_, hperform⟩ := hp
    have hdoes := Shared.perform_does hperform
    have hraised' : RaisedOn conn t (.did u (.appendIdle conn) () :: b.history) := by
      obtain ⟨f, kwargs, exc, hmem⟩ := hraised
      exact ⟨f, kwargs, exc, List.mem_cons_of_mem _ hmem⟩
    have hw := hands_reachable hprog hd.reachable
    have hnot := ((away_of_raised hd hraised').notIdle hw).1
    cases hdoes
    exact hnot List.mem_cons_self
  · intro later earlier t u conn o v hh hout hraised
    obtain ⟨b, d, hb, hp, _, rfl⟩ := h.performed hh
    have hw := hands_reachable hprog hb.reachable
    obtain ⟨hidle, hlt⟩ := (away_of_raised hb hraised).notIdle hw
    obtain ⟨_, hperform⟩ := hp
    cases handsOut_cases (Shared.perform_does hperform) hout with
    | inl hin => exact hidle hin
    | inr hnext => exact Nat.lt_irrefl _ (hnext ▸ hlt)

section Sample

/-- The answers to a second write on the transaction, up to its RFC. -/
def followUpAnswers : List Choice :=
  [.time 3, .go, .go, .go, .go, .go, .go, .time 3, .go, .go, .go, .go, .go, .go, .go, .go, .go]

/-- The RFC raises, and the transaction is to be discarded. -/
def failureAnswers : List Choice :=
  [.answer (.error (.driver .communication "connection lost" none none)), .go, .go, .go, .go]

/-- A write, and another on its transaction that fails. -/
def sampleFailure : List (Move (server sampleSettings)) :=
  sampleWrite 0 ++
    script 1 (.callTransactional "Z_WRITE" [] "write" (some "T"))
      (followUpAnswers ++ failureAnswers ++ [.go, .go, .go, .go, .go])

theorem never_reused_failure : ∃ c,
    executeWhere discardFinds (server sampleSettings).initial sampleFailure = some c ∧
      NeverReused c := by
  have hrun : (executeWhere discardFinds (server sampleSettings).initial sampleFailure).isSome =
      true := by decide +kernel
  obtain ⟨c, hc⟩ := Option.isSome_iff_exists.mp hrun
  exact ⟨c, hc, never_reused (executeWhere_reachable .init hc)⟩

/-- Thread `t` goes on with these answers. -/
def goesOn (t : ℕ) (answers : List Choice) : List (Move (server sampleSettings)) :=
  answers.map fun ch => .run t ch

/-- The same, but `close` takes the table over while the second write is under way. Its discard
finds nothing, and the rollback of `close` succeeds. -/
def sampleRace : List (Move (server sampleSettings)) :=
  sampleWrite 0 ++
    script 1 (.callTransactional "Z_WRITE" [] "write" (some "T")) followUpAnswers ++
    script 2 .close [.go, .go, .go] ++
    goesOn 1 (failureAnswers ++ [.go]) ++
    goesOn 2 [.go, .go, .answer (.ok []), .go, .go, .go, .go]

/-- An RFC of thread `t` on this connection has raised. -/
def raised (t : ℕ) (conn : Conn) : Event Effects Request → Bool
  | .did u (.rfcEnd conn' _ _) (.error _) => decide (u = t) && decide (conn' = conn)
  | _ => false

theorem reused_after_race : ∃ c,
    execute (server sampleSettings).initial sampleRace = some c ∧ ¬NeverReused c := by
  have hrun : ((execute (server sampleSettings).initial sampleRace).any fun c =>
      decide (0 ∈ c.shared.idle) && c.history.any (raised 1 0)) = true := by decide +kernel
  obtain ⟨c, hc, hfound⟩ := (Option.any_eq_true _ _).mp hrun
  obtain ⟨hidle, hraised⟩ := Bool.and_eq_true_iff.mp hfound
  refine ⟨c, hc, fun hnever => ?_⟩
  obtain ⟨ev, hev, hmatch⟩ := List.any_eq_true.mp hraised
  unfold raised at hmatch
  split at hmatch
  · obtain ⟨ht, hconn⟩ := Bool.and_eq_true_iff.mp hmatch
    cases of_decide_eq_true ht
    cases of_decide_eq_true hconn
    exact hnever.notIdle 1 0 ⟨_, _, _, hev⟩ (of_decide_eq_true hidle)
  · cases hmatch

end Sample

end RfcMcp
