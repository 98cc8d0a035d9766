import RfcMcp.Durability.Agreement

namespace RfcMcp

open Framework Framework.System

variable {cfg : AppSettings} {c : Run cfg} {updates : SapCall → Bool} {L : SapLedger}

theorem agrees_initial : Agrees updates (server cfg).initial Ledger.empty [] := by
  have hnone : ∀ (t : ℕ) (conn : Conn) (p : Purpose),
      ((hands (server cfg).initial).locals t).busy ≠ some (conn, p) := fun _ _ _ => nofun
  constructor
  · intro conn call hexec
    cases hexec
  · exact fun _ _ => rfl
  · exact fun _ _ _ _ => rfl
  · exact fun _ _ _ _ _ _ => rfl
  · exact fun _ _ _ _ => rfl
  · exact fun t _ _ hbusy => absurd hbusy (hnone t _ _)
  · exact fun t _ hbusy => absurd hbusy (hnone t _ _)
  · exact List.nodup_nil
  · rfl
  · intro e he
    cases he
  · intro t rfc raw e hmem
    cases hmem

/-- SAP's side fits to every run. -/
theorem agrees (hclass : Classified cfg updates) (h : Reachable c)
    (hsees : SapSees updates c.history L) : ∃ committed, Agrees updates c L committed := by
  refine h.sees_induction (I := fun c L => ∃ committed, Agrees updates c L committed)
    ⟨[], agrees_initial⟩ ?_ ?_ ?_ hsees
  · rintro c r L hc ⟨committed, hL⟩
    exact ⟨committed, hL.spawn r hc⟩
  · rintro c t o v c' L L' hc hp hobserves ⟨committed, hL⟩
    cases hobserves with
    | quiet hbegins hends =>
      have hrfc : o.isRfc = false := by
        cases o with
        | rfcBegin _ _ _ _ => cases hbegins
        | rfcEnd _ _ _ => cases v <;> cases hends
        | _ => rfl
      exact ⟨committed, hL.quiet hc hp hrfc⟩
    | begun hbegins =>
      cases o with
      | rfcBegin conn p f kwargs =>
        cases hbegins
        exact ⟨committed, hL.begin hclass hc hp⟩
      | _ => cases hbegins
    | returned hends hdone =>
      cases o with
      | rfcEnd conn f kwargs =>
        cases v with
        | error exc => cases hends
        | ok raw =>
          cases hends
          have hended := hL.ended hc hp fun _ _ => hdone
          rw [Ledger.drop_quiet hdone] at hended
          exact ⟨committed, hended⟩
      | _ => cases hends
    | failed hends =>
      cases o with
      | rfcEnd conn f kwargs =>
        cases v with
        | ok raw => cases hends
        | error exc =>
          cases hends
          exact ⟨committed, hL.ended hc hp nofun⟩
      | _ => cases hends
  · rintro c L conn call hc hexec ⟨committed, hL⟩
    exact hL.execute hc hexec

/-- What SAP has made durable, as transactions of the server: `committed`, the newest first. -/
structure DurableAs (updates : SapCall → Bool) (c : Run cfg) (L : SapLedger)
    (committed : List Entry) : Prop where
  nodup : committed.Nodup
  /-- Each of them is durable as a whole, and nothing else is. -/
  groups : L.durable = committed.map fun e => updatesFor updates e c.history
  /-- Somebody has asked for its COMMIT, -/
  requested : ∀ e ∈ committed, .commit e ∈ record Op.issues c.history
  /-- and the result of every write on it has been returned, with its ID. -/
  answered : ∀ e ∈ committed, ∀ u rfc, rfc ∈ rfcsOf u c.history → rfc.purpose = .write e →
    ∃ raw value request, rfc.result = some (.ok raw) ∧ cfg.limits.apply (.dict raw) = .ok value ∧
      c.threads[u]? = some (request, .ret (.ok (.written value (some e.1))))
  /-- Every COMMIT that SAP has confirmed is among them. -/
  confirmed : ∀ t rfc raw e, rfc ∈ rfcsOf t c.history → rfc.purpose = .commit e →
    rfc.result = some (.ok raw) → e ∈ committed
  /-- Nothing that a transaction has left behind waits on a connection for its next user. -/
  idle : ∀ conn ∈ c.shared.idle, L.pending conn = [] ∧ L.executing conn = none

/-- However requests interleave, and whenever SAP lets a call take effect, the server refines a
store of atomic transactions. -/
theorem atomic_units (hclass : Classified cfg updates) (h : Reachable c)
    (hsees : SapSees updates c.history L) : ∃ committed, DurableAs updates c L committed := by
  obtain ⟨committed, hL⟩ := agrees hclass h hsees
  refine ⟨committed, hL.nodup, hL.groups, hL.issued, ?_, hL.acknowledged, ?_⟩
  · intro e he u rfc hrfc hwrite
    have hcontrols := mem_controls_of_issues (e := e) (hL.issued e he) rfl
    obtain ⟨t, ht⟩ := exists_recordOf hcontrols
    exact writes_accepted h ht hrfc hwrite
  · intro conn hidle
    refine ⟨hL.clear conn (.idle hidle), ?_⟩
    cases hexec : L.executing conn with
    | none => rfl
    | some call =>
      obtain ⟨t, p, hbusy, _⟩ := hL.running conn call hexec
      have hw := hands_reachable (@program_follows cfg) h
      rcases Hands.busy_owner hw hbusy with hheld | ⟨e, hopen, rfl, _⟩
      · exact absurd hidle ((Hands.away_of_held hw hheld).notIdle hw).1
      · exact absurd hidle ((Hands.away_of_open hopen).notIdle hw).1

section Sample

/-- A server where `Z_WRITE` is the only function that may be called. -/
def guardedSettings : AppSettings :=
  { sampleSettings with policy := { mode := .readWrite, writeAllowPatterns := ["Z_WRITE"] } }

/-- A write, and the commit of its transaction. -/
def guardedCommit : List (Move (server guardedSettings)) :=
  (.start (.callTransactional "Z_WRITE" [] "write" none) ::
    writeAnswers.map fun ch => .run 0 ch) ++
  .start (.commit "T" true) :: commitAnswers.map fun ch => .run 1 ch

theorem guarded_classified :
    Classified guardedSettings fun call => call.function == "Z_WRITE" := by
  constructor
  · intro f kwargs hread
    unfold PolicySettings.isReadAllowed at hread
    split at hread <;> cases hread
  · intro f hf kwargs
    simp only [discoveryFunctions, List.mem_cons, List.not_mem_nil, or_false] at hf
    rcases hf with rfl | rfl | rfl <;> rfl
  · decide +kernel
  · decide +kernel

theorem atomic_units_commit : ∃ c L,
    execute (server guardedSettings).initial guardedCommit = some c ∧
      SapSees (fun call => call.function == "Z_WRITE") c.history L ∧
      ∃ committed, DurableAs (fun call => call.function == "Z_WRITE") c L committed := by
  have hrun : (execute (server guardedSettings).initial guardedCommit).isSome = true := by
    decide +kernel
  obtain ⟨c, hc⟩ := Option.isSome_iff_exists.mp hrun
  have hview : ∃ L, SapSees (fun call => call.function == "Z_WRITE") c.history L ∧
      ∀ k, L.executing k = none := exists_sees c.history
  obtain ⟨L, hsees, _⟩ := hview
  have hreach : Reachable c := execute_reachable hc
  have hatomic := atomic_units guarded_classified hreach hsees
  exact ⟨c, L, hc, hsees, hatomic⟩

end Sample

end RfcMcp
