import RfcMcp.Custody.Lifecycle

namespace RfcMcp

open Framework

variable {cfg : AppSettings} {Request Reply : Type} {program : Request → Program Effects Reply}
  {w : Hands cfg program} {t u : ℕ} {e : Entry}

section Frames

theorem mem_started_of_step {limits : ResultLimitPolicy} {g : Custody} {o : Op}
    (hallowed : g.allows limits o) (v : o.Res) (he : e ∈ (g.after limits o v).started) :
    e ∈ g.started ∨ (g.stage = .current e ∧ (g.after limits o v).stage = .writing e) := by
  cases hrfc : o.isRfc with
  | false =>
    rw [(after_sameRfcs limits g v hrfc).started] at he
    exact .inl he
  | true =>
    cases o with
    | rfcBegin conn p f kwargs =>
      cases p with
      | write e' =>
        obtain ⟨_, _, _, hcurrent⟩ := hallowed
        rcases List.mem_cons.mp he with rfl | hold
        · exact .inr ⟨hcurrent, rfl⟩
        · exact .inl hold
      | _ => exact .inl he
    | rfcEnd => exact .inl he
    | _ => cases hrfc

theorem mem_controlled_of_step {limits : ResultLimitPolicy} {g : Custody} {o : Op} {p : Purpose}
    (v : o.Res) (hp : p ∈ (g.after limits o v).controlled) :
    p ∈ g.controlled ∨ ∃ conn f kwargs, o = .rfcBegin conn p f kwargs := by
  cases hrfc : o.isRfc with
  | false =>
    rw [(after_sameRfcs limits g v hrfc).controlled] at hp
    exact .inl hp
  | true =>
    cases o with
    | rfcBegin conn q f kwargs =>
      cases q with
      | commit _ | rollback _ | expire _ | shutdown _ =>
        rcases List.mem_cons.mp hp with rfl | hold
        · exact .inr ⟨conn, f, kwargs, rfl⟩
        · exact .inl hold
      | _ => exact .inl hp
    | rfcEnd => exact .inl hp
    | _ => cases hrfc

/-- Who controls a transaction has taken it out, holds its lock and is not working on it. -/
theorem Custody.MayCall.controls {g : Custody} {conn : Conn} {p : Purpose}
    (h : g.MayCall conn p) (hp : p.controls = some e) :
    g.MayControl conn e ∧ (g.stage = .ended e ∨ g.stage = .idle) := by
  cases p with
  | commit _ | rollback _ => cases hp; exact ⟨h.1, .inl h.2⟩
  | expire _ | shutdown _ => cases hp; exact ⟨h.1, .inr h.2⟩
  | _ => cases hp

end Frames

section Live

theorem Hands.openCount_start (h : w.locals w.size = {}) (p : Entry → Bool) :
    Hands.openCount { w with size := w.size + 1 } p = w.openCount p := by
  unfold Hands.openCount
  rw [Crew.total_start, h]
  rfl

theorem Hands.seenCount_start (h : w.locals w.size = {}) (p : Entry → Bool) :
    Hands.seenCount { w with size := w.size + 1 } p = w.seenCount p := by
  unfold Hands.seenCount
  rw [Hands.openCount_start h, Crew.total_start, h]
  rfl

theorem Hands.Seen.start (he : w.Seen e) (h : w.locals w.size = {}) :
    Hands.Seen { w with size := w.size + 1 } e := by
  unfold Hands.Seen at he ⊢
  rw [Hands.seenCount_start h]
  exact he

/-- A thread that may use the connection of a transaction knows it open: nobody lets go of that
connection without the transaction's lock. -/
theorem Hands.live_open (h : w.Reachable) (ht : (w.locals t).stage.live = some e) : w.Open e := by
  refine induction (J := fun w => ∀ t e, (w.locals t).stage.live = some e → w.Open e) h ?_ ?_ ?_
    t e ht
  · intro t e ht
    cases ht
  · intro w hstart ih t e ht
    have hopen := ih t e ht
    unfold Hands.Open at hopen ⊢
    rw [openCount_start hstart]
    exact hopen
  · intro w u o v s hw hu hallowed hdoes ih t e ht
    by_cases hleaves : o.leaves = some e
    · -- the connection is being let go of: `u` has the lock and no business with it
      exfalso
      cases o <;> try cases hleaves
      rename_i conn reusable
      obtain ⟨_, _, _, _, _, hlock, hstage⟩ := hallowed
      have hold : (w.locals t).stage.live = some e := by
        by_cases htu : t = u
        · subst htu
          rw [Crew.advance_self] at ht
          exact ht
        · rw [Crew.advance_ne w htu] at ht
          exact ht
      obtain rfl := Hands.guard_unique hw hlock (Stage.guarded_of_live hold)
      rcases hstage with hstage | hstage <;> rw [hstage] at hold <;> cases hold
    · by_cases htu : t = u
      · subst htu
        rw [Crew.advance_self] at ht
        have hmoves := moves_of_allows hallowed v
        change ((w.locals t).after cfg.limits o v).stage.live = some e at ht
        generalize ((w.locals t).after cfg.limits o v).stage = stage at ht hmoves
        cases hmoves with
        | same => exact (ih t e ht).advance hw hu hallowed hdoes hleaves
        | @current id a hlocked =>
          cases ht
          have hmem := lookup_mem (hdoes.isCurrent_true rfl)
          exact ((open_iff hw).mpr (.inl hmem)).advance hw hu hallowed hdoes hleaves
        | writing hs | wrote hs | failed hs =>
          cases ht
          exact (ih t e (by rw [hs]; rfl)).advance hw hu hallowed hdoes hleaves
        | _ => cases ht
      · rw [Crew.advance_ne w htu] at ht
        exact (ih t e ht).advance hw hu hallowed hdoes hleaves

/-- Every write is on a transaction that has been registered. -/
theorem Hands.started_seen (h : w.Reachable) (ht : e ∈ (w.locals t).started) : w.Seen e := by
  refine induction (J := fun w => ∀ t e, e ∈ (w.locals t).started → w.Seen e) h ?_ ?_ ?_ t e ht
  · intro t e ht
    cases ht
  · intro w hstart ih t e ht
    exact (ih t e ht).start hstart
  · intro w u o v s hw hu hallowed hdoes ih t e ht
    have hseen : w.Seen e := by
      by_cases htu : t = u
      · subst htu
        rw [Crew.advance_self] at ht
        rcases mem_started_of_step hallowed v ht with hold | ⟨hcurrent, _⟩
        · exact ih t e hold
        · exact (live_open hw (by rw [hcurrent]; rfl)).seen
      · rw [Crew.advance_ne w htu] at ht
        exact ih t e ht
    exact hseen.advance hw hu hallowed hdoes

end Live

section Writers

/-- The transaction whose write is under way or has just been made. -/
@[simp] def Stage.writes : Stage → Option Entry
  | .writing e => some e
  | .wrote e _ => some e
  | .failed e => some e
  | .accepted e _ => some e
  | .written e _ => some e
  | _ => none

/-- A write that no longer needs the lock has been accepted. -/
theorem Stage.guarded_of_writes {stage : Stage} (h : stage.writes = some e) :
    stage.guarded = some e.2.ref ∨ ∃ value, stage = .written e value := by
  cases stage <;> cases h
  case written value => exact .inr ⟨value, rfl⟩
  all_goals exact .inl rfl

/-- After `_remove_if_current` the transaction is not in the table, whatever the outcome. -/
theorem notMem_of_removeIfCurrent {s s' : Shared} {id : TxId} {a : ActiveTransaction} {v : Bool}
    (hnodup : s.ids.Nodup) (hdoes : Does cfg t s (.removeIfCurrent id a) v s') :
    (id, a) ∉ s'.table := by
  intro hmem
  cases hdoes with
  | removed hid =>
    have hkept := (List.mem_filter.mp hmem).2
    simp at hkept
  | notCurrent hid => exact hid (lookup_eq_some hnodup hmem)

/-- While a transaction is in the table, who began a write on it is still at it or has returned. -/
theorem Hands.writer_stage (h : w.Reachable) (ht : e ∈ (w.locals t).started)
    (he : e ∈ w.shared.table) : (w.locals t).stage.writes = some e := by
  refine induction (J := fun w => ∀ t e, e ∈ (w.locals t).started → e ∈ w.shared.table →
    (w.locals t).stage.writes = some e) h ?_ (fun _ _ ih => ih) ?_ t e ht he
  · intro t e ht
    cases ht
  · intro w u o v s hw hu hallowed hdoes ih t e ht he
    change e ∈ s.table at he
    have hbefore : ∀ t, e ∈ (w.locals t).started → e ∈ w.shared.table := by
      intro t ht
      rcases mem_table_of_does hdoes he (enters_fresh hw hu hallowed) with hold | henters
      · exact hold
      · exact absurd (started_seen hw ht) (not_seen hw hu hallowed henters)
    by_cases htu : t = u
    · subst htu
      rw [Crew.advance_self] at ht ⊢
      rcases mem_started_of_step hallowed v ht with hold | ⟨_, hwriting⟩
      · have hwrites := ih t e hold (hbefore t hold)
        have hmoves := moves_of_allows hallowed v
        change ((w.locals t).after cfg.limits o v).stage.writes = some e
        generalize ((w.locals t).after cfg.limits o v).stage = stage at hmoves
        cases hmoves with
        | same => exact hwrites
        | gaveUp hs =>
          -- the writer takes its transaction out of the table
          rcases hs with ⟨raw, hs⟩ | hs <;> rw [hs] at hwrites <;> cases hwrites <;>
            exact absurd he (notMem_of_removeIfCurrent (ids_nodup hw) hdoes)
        | wrote hs | failed hs | accepted hs _ | written hs => rw [hs] at hwrites; exact hwrites
        | locked hs | current hs | stale hs | unknown hs | ended hs | late hs | writing hs
        | finished hs | refused hs => rw [hs] at hwrites; cases hwrites
      · change ((w.locals t).after cfg.limits o v).stage.writes = some e
        rw [hwriting]
        rfl
    · rw [Crew.advance_ne w htu] at ht ⊢
      exact ih t e ht (hbefore t ht)

end Writers

section Closing

/-- The transaction has left the table, and nobody is working on it. -/
structure Hands.Closed (w : Hands cfg program) (e : Entry) : Prop where
  seen : w.Seen e
  table : e ∉ w.shared.table
  live : ∀ t, (w.locals t).stage.live ≠ some e

/-- Besides, every write on the transaction has been accepted and its lock let go of. -/
structure Hands.Sealed (w : Hands cfg program) (e : Entry) : Prop extends w.Closed e where
  written : ∀ t, e ∈ (w.locals t).started → ∃ value, (w.locals t).stage = .written e value

variable {o : Op} {v : o.Res} {s : Shared}

theorem Hands.Closed.start (he : w.Closed e) (h : w.locals w.size = {}) :
    Hands.Closed { w with size := w.size + 1 } e :=
  ⟨he.seen.start h, he.table, he.live⟩

theorem Hands.Sealed.start (he : w.Sealed e) (h : w.locals w.size = {}) :
    Hands.Sealed { w with size := w.size + 1 } e :=
  ⟨he.toClosed.start h, he.written⟩

theorem Hands.Closed.advance (he : w.Closed e) (h : w.Reachable) (ht : t < w.size)
    (hallowed : (w.locals t).allows cfg.limits o) (hdoes : Does cfg t w.shared o v s) :
    Hands.Closed (w.advance t o v s) e := by
  refine ⟨he.seen.advance h ht hallowed hdoes, notMem_advance he.seen he.table h ht hallowed hdoes,
    fun u hu => ?_⟩
  by_cases hut : u = t
  · subst hut
    rw [Crew.advance_self] at hu
    have hlive := he.live u
    have hmoves := moves_of_allows hallowed v
    change ((w.locals u).after cfg.limits o v).stage.live = some e at hu
    generalize ((w.locals u).after cfg.limits o v).stage = stage at hu hmoves
    cases hmoves with
    | same => exact hlive hu
    | @current id a hs =>
      cases hu
      exact he.table (lookup_mem (hdoes.isCurrent_true rfl))
    | writing hs | wrote hs | failed hs => rw [hs] at hlive; exact hlive hu
    | _ => cases hu
  · rw [Crew.advance_ne w hut] at hu
    exact he.live u hu

theorem Hands.Sealed.advance (he : w.Sealed e) (h : w.Reachable) (ht : t < w.size)
    (hallowed : (w.locals t).allows cfg.limits o) (hdoes : Does cfg t w.shared o v s) :
    Hands.Sealed (w.advance t o v s) e := by
  refine ⟨he.toClosed.advance h ht hallowed hdoes, fun u hu => ?_⟩
  by_cases hut : u = t
  · subst hut
    rw [Crew.advance_self] at hu ⊢
    rcases mem_started_of_step hallowed v hu with hold | ⟨hcurrent, _⟩
    · -- a thread that has returned does nothing any more
      obtain ⟨value, hwritten⟩ := he.written u hold
      have hreturned := hallowed.1
      rw [hwritten] at hreturned
      cases hreturned
    · exact absurd (by rw [hcurrent]; rfl) (he.live u)
  · rw [Crew.advance_ne w hut] at hu ⊢
    exact he.written u hu

/-- A transaction is closed when it gets its COMMIT or ROLLBACK, and from then on. -/
theorem Hands.controlled_closed (h : w.Reachable) {p : Purpose}
    (hp : p ∈ (w.locals t).controlled) (he : p.controls = some e) : w.Closed e := by
  refine induction (J := fun w => ∀ t p, p ∈ (w.locals t).controlled → p.controls = some e →
    w.Closed e) h ?_ ?_ ?_ t p hp he
  · intro t p hp
    cases hp
  · intro w hstart ih t p hp he
    exact (ih t p hp he).start hstart
  · intro w u o v s hw hu hallowed hdoes ih t p hp he
    refine Closed.advance ?_ hw hu hallowed hdoes
    by_cases htu : t = u
    · subst htu
      rw [Crew.advance_self] at hp
      rcases mem_controlled_of_step v hp with hold | ⟨conn, f, kwargs, rfl⟩
      · exact ih t p hold he
      · obtain ⟨⟨_, hremoved, _, hlock⟩, hstage⟩ := hallowed.2.2.controls he
        refine ⟨((open_iff hw).mpr (.inr ⟨t, hremoved⟩)).seen, notMem_table hw (.inl hremoved),
          fun u hu => ?_⟩
        obtain rfl := Hands.guard_unique hw hlock (Stage.guarded_of_live hu)
        rcases hstage with hstage | hstage <;> rw [hstage] at hu <;> cases hu
    · rw [Crew.advance_ne w htu] at hp
      exact ih t p hp he

/-- A transaction that a thread has come to end is sealed: whoever wrote on it has had the lock
before, and has let go of it only after the write was accepted. -/
theorem Hands.ended_sealed (h : w.Reachable) (ht : (w.locals t).stage = .ended e) :
    w.Sealed e := by
  refine induction (J := fun w => ∀ t e, (w.locals t).stage = .ended e → w.Sealed e) h ?_ ?_ ?_
    t e ht
  · intro t e ht
    cases ht
  · intro w hstart ih t e ht
    exact (ih t e ht).start hstart
  · intro w u o v s hw hu hallowed hdoes ih t e ht
    by_cases htu : t = u
    · subst htu
      rw [Crew.advance_self] at ht
      have hmoves := moves_of_allows hallowed v
      change ((w.locals t).after cfg.limits o v).stage = .ended e at ht
      have hafter := ht
      generalize ((w.locals t).after cfg.limits o v).stage = stage at ht hmoves
      cases hmoves with
      | same => exact (ih t e ht).advance hw hu hallowed hdoes
      | @ended id a hlocked =>
        cases ht
        have hmem : (id, a) ∈ w.shared.table := lookup_mem (hdoes.removeIfCurrent_true rfl)
        have hlock := hallowed.2.1
        have hopen := (open_iff hw).mpr (.inl hmem)
        refine ⟨⟨hopen.seen.advance hw hu hallowed hdoes,
          notMem_of_removeIfCurrent (ids_nodup hw) hdoes, fun u hlive => ?_⟩, fun u hstarted => ?_⟩
        · by_cases hut : u = t
          · subst hut
            rw [Crew.advance_self] at hlive
            change ((w.locals u).after _ _ _).stage.live = _ at hlive
            rw [hafter] at hlive
            cases hlive
          · rw [Crew.advance_ne w hut] at hlive
            exact hut (guard_unique hw hlock (Stage.guarded_of_live hlive)).symm
        · by_cases hut : u = t
          · subst hut
            rw [Crew.advance_self] at hstarted
            rcases mem_started_of_step hallowed _ hstarted with hold | ⟨hcurrent, _⟩
            · have hwrites := writer_stage hw hold hmem
              rw [hlocked] at hwrites
              cases hwrites
            · rw [hlocked] at hcurrent
              cases hcurrent
          · rw [Crew.advance_ne w hut] at hstarted ⊢
            rcases Stage.guarded_of_writes (writer_stage hw hstarted hmem) with hguard | hwritten
            · exact absurd (guard_unique hw hlock hguard).symm hut
            · exact hwritten
      | _ => cases ht
    · rw [Crew.advance_ne w htu] at ht
      exact (ih t e ht).advance hw hu hallowed hdoes

/-- A transaction is sealed when its COMMIT is issued, and from then on. -/
theorem Hands.committed_sealed (h : w.Reachable) (ht : .commit e ∈ (w.locals t).controlled) :
    w.Sealed e := by
  refine induction (J := fun w => ∀ t e, .commit e ∈ (w.locals t).controlled → w.Sealed e)
    h ?_ ?_ ?_ t e ht
  · intro t e ht
    cases ht
  · intro w hstart ih t e ht
    exact (ih t e ht).start hstart
  · intro w u o v s hw hu hallowed hdoes ih t e ht
    refine Sealed.advance ?_ hw hu hallowed hdoes
    by_cases htu : t = u
    · subst htu
      rw [Crew.advance_self] at ht
      rcases mem_controlled_of_step v ht with hold | ⟨conn, f, kwargs, rfl⟩
      · exact ih t e hold
      · exact ended_sealed hw hallowed.2.2.2
    · rw [Crew.advance_ne w htu] at ht
      exact ih t e ht

end Closing

section Controls

def Purpose.controlsEntry (e : Entry) (p : Purpose) : Bool := decide (p.controls = some e)

/-- A thread controls what it has taken out, at most once each time. -/
def Custody.ControlsOnce (g : Custody) : Prop :=
  ∀ e, g.controlled.countP (Purpose.controlsEntry e) + g.uncontrolled.count e ≤
    g.removed.count e + g.released.count e

theorem controlsOnce_step {limits : ResultLimitPolicy} {g : Custody} {o : Op}
    (hallowed : g.allows limits o) (v : o.Res) (hg : g.ControlsOnce) :
    (g.after limits o v).ControlsOnce := by
  intro e
  have hbefore := hg e
  cases o with
  | rfcBegin conn p f kwargs =>
    cases hp : p.controls with
    | none => cases p <;> first | exact hbefore | cases hp
    | some e' =>
      obtain ⟨⟨_, _, huncontrolled, _⟩, _⟩ := hallowed.2.2.controls hp
      have hcount := (List.perm_cons_erase huncontrolled).count_eq e
      have hafter : (g.after limits (.rfcBegin conn p f kwargs) v).controlled =
            p :: g.controlled ∧
          (g.after limits (.rfcBegin conn p f kwargs) v).uncontrolled =
            g.uncontrolled.erase e' ∧
          (g.after limits (.rfcBegin conn p f kwargs) v).removed = g.removed ∧
          (g.after limits (.rfcBegin conn p f kwargs) v).released = g.released := by
        cases p <;> cases hp <;> exact ⟨rfl, rfl, rfl, rfl⟩
      obtain ⟨hcontrolled, herase, hremoved, hreleased⟩ := hafter
      rw [hcontrolled, herase, hremoved, hreleased, List.countP_cons]
      rw [List.count_cons] at hcount
      simp only [Purpose.controlsEntry, hp, Option.some.injEq, decide_eq_true_eq, beq_iff_eq]
        at hcount ⊢
      omega
  | poolRelease conn reusable luw =>
    cases luw with
    | none => exact hbefore
    | some e' =>
      obtain ⟨_, _, _, _, hremoved, _⟩ := hallowed
      have hcount := (List.perm_cons_erase hremoved).count_eq e
      simp only [Custody.after, Custody.afterRelease, List.count_cons] at hcount ⊢
      omega
  | removeIfCurrent id a =>
    cases v <;> cases hs : g.stage <;>
      simp only [Custody.after, Custody.afterRemove, hs, Custody.remove] <;>
      first | exact hbefore | (simp only [if_true, List.count_cons]; omega)
  | removeIfExpired id a cutoff =>
    cases v with
    | false => exact hbefore
    | true =>
      simp only [Custody.after, Custody.remove, List.count_cons]
      omega
  | drain =>
    obtain ⟨_, _, hremoved⟩ := hallowed
    rw [hremoved] at hbefore
    simp only [Custody.after]
    simp only [List.count_nil] at hbefore
    omega
  | closeConnection conn =>
    simp only [Custody.after]
    split <;> exact hbefore
  | tryAcquire _ | semAcquire | scanIdle | openConnection | lookup _ => cases v <;> exact hbefore
  | _ => exact hbefore

theorem Hands.controlsOnce (h : w.Reachable) (t : ℕ) : (w.locals t).ControlsOnce :=
  local_invariant (fun _ => Nat.le_refl _) (fun _ _ v hg hallowed =>
    controlsOnce_step hallowed v hg) h t

/-- Only what a thread has taken out of the table gets a COMMIT or ROLLBACK from it. -/
theorem Hands.removed_of_controlled (h : w.Reachable) {p : Purpose}
    (hp : p ∈ (w.locals t).controlled) (he : p.controls = some e) :
    e ∈ (w.locals t).removed ∨ e ∈ (w.locals t).released := by
  have hone := Hands.controlsOnce h t e
  have hpos : 0 < (w.locals t).controlled.countP (Purpose.controlsEntry e) :=
    List.countP_pos_iff.mpr ⟨p, hp, decide_eq_true he⟩
  rw [← List.count_pos_iff, ← List.count_pos_iff]
  omega

/-- Altogether a transaction gets at most one COMMIT or ROLLBACK. -/
theorem Hands.controls_le_one (h : w.Reachable) (e : Entry) :
    (w.total fun g : Custody => g.controlled.countP (Purpose.controlsEntry e)) ≤ 1 := by
  have hcount : ∀ l : List Entry, l.count e = l.countP (isEntry e) := fun l =>
    List.countP_congr fun e' _ => by simp [isEntry]
  have hle := Crew.total_le
    (fun g : Custody => g.controlled.countP (Purpose.controlsEntry e))
    (fun g : Custody => g.removed.countP (isEntry e) + g.released.countP (isEntry e)) (w := w)
    fun t => by
      have hone := Hands.controlsOnce h t e
      simp only [hcount] at hone
      omega
  have hsum := Crew.total_add (fun g : Custody => g.removed.countP (isEntry e))
    (fun g : Custody => g.released.countP (isEntry e)) w
  change w.total (fun g : Custody =>
    g.removed.countP (isEntry e) + g.released.countP (isEntry e)) = _ at hsum
  have hseen := Hands.seen_le_one h e
  unfold Hands.seenCount Hands.openCount at hseen
  omega

end Controls

end RfcMcp
