import RfcMcp.Writes.Programs
import RfcMcp.Writes.Returned

namespace RfcMcp

open Framework Framework.System Framework.Protocol

variable {cfg : AppSettings} {c d : Run cfg}

/-- What thread `t`, a write that was called in `c` and has failed, leaves behind in `d`. -/
structure FailureLeaves (c d : Run cfg) (t : ℕ) (id : Option TxId) : Prop where
  /-- Without an RFC of its own nothing has changed but what its sweep has expired. -/
  before : NoOwn (traceOf t d.history) → Unwritten c.shared (traceOf t d.history) d.shared
  /-- After its RFC it has given its own transaction up, and changed nothing else. -/
  after : ¬ NoOwn (traceOf t d.history) →
    ∃ e, Concerns c.shared e id ∧ Discarded c.shared e (traceOf t d.history) d.shared
  lastUsed : ∀ e ∈ d.shared.table,
    e ∈ c.shared.table ∧ d.shared.lastUsed e.2.ref = c.shared.lastUsed e.2.ref
  permits : d.shared.permits + d.shared.table.length = c.shared.permits + c.shared.table.length
  returned : ∀ e ∈ d.shared.table, ∃ (u : ℕ) (request : Request) (value : PyValue),
    d.threads[u]? = some (request, .ret (.ok (.written value (some e.1))))

theorem Issued.not_noOwn {e : Entry} {trace effects : Trace Effects} (h : Issued e trace effects) :
    ¬ NoOwn trace := by
  obtain ⟨before, after, f, kwargs, rfl, _⟩ := h
  intro hnone
  have hown := hnone ⟨.rfcBegin e.2.connection (.write e) f kwargs, ()⟩
    (List.mem_append_right _ List.mem_cons_self)
  cases hown

theorem WriteFailed.lastUsed (h : Reachable c) {id : Option TxId} {trace : Trace Effects}
    {s : Shared} (hfailed : WriteFailed c.shared id trace s) {e : Entry} (he : e ∈ s.table) :
    e ∈ c.shared.table ∧ s.lastUsed e.2.ref = c.shared.lastUsed e.2.ref := by
  cases hfailed with
  | inl hunwritten =>
    rw [hunwritten.table] at he
    exact ⟨List.mem_of_mem_filter he, by rw [hunwritten.lastUsed]⟩
  | inr hdiscarded =>
    obtain ⟨e', _, _, hgone, _⟩ := hdiscarded
    rw [hgone.table] at he
    have hmem : e ∈ c.shared.table := List.mem_of_mem_filter (List.mem_of_mem_filter he)
    exact ⟨hmem, hgone.lastUsed _ (ref_lt h hmem)⟩

/-- A write that runs while no other request is in flight ends, and if it fails, it leaves behind
what is documented. -/
theorem failing_write (h : Reachable c) (hquiet : Quiet c) (f : String) (parameters : PyDict)
    (id : Option TxId) :
    Ends c.threads.length (fun (reply : Except PyExc Answer) d =>
        ∀ exc, reply = .error exc → FailureLeaves c d c.threads.length id)
      (c.spawn (.callTransactional f parameters "write" id)) := by
  have hids : c.shared.ids.Nodup := Hands.ids_nodup (hands_reachable (@program_follows cfg) h)
  refine ends_of_quiet h hquiet _ ?_
  intro d reply hsolo hd hquiet' hget exc hexc
  have hfailed : WriteFailed c.shared id (traceOf c.threads.length d.history) d.shared :=
    hsolo.knows (follows_write hids (fun e he => ids_drawn h he) f parameters id) h hget exc hexc
  refine ⟨fun hnone => ?_, fun hown => ?_, fun e he => hfailed.lastUsed h he, ?_,
    fun e he => returned_of_quiet hd hquiet' he⟩
  · cases hfailed with
    | inl hunwritten => exact hunwritten
    | inr hdiscarded =>
      obtain ⟨e, _, hissued, _⟩ := hdiscarded
      exact absurd hnone hissued.not_noOwn
  · cases hfailed with
    | inl hunwritten => exact absurd hunwritten.own hown
    | inr hdiscarded => exact hdiscarded
  · rw [permits_of_quiet hd hquiet', permits_of_quiet h hquiet]

/-- A further write while one transaction is open. -/
theorem failing_write_second : ∃ c,
    execute (server sampleSettings).initial (sampleWrite 0) = some c ∧
      Ends c.threads.length (fun (reply : Except PyExc Answer) d =>
          ∀ exc, reply = .error exc → FailureLeaves c d c.threads.length (some "T"))
        (c.spawn (.callTransactional "Z_WRITE" [] "write" (some "T"))) := by
  have hrun : ((execute (server sampleSettings).initial (sampleWrite 0)).any fun c =>
      c.threads.all fun thread => isDone thread.2) = true := by
    decide +kernel
  obtain ⟨c, hc, hdone⟩ := (Option.any_eq_true _ _).mp hrun
  exact ⟨c, hc, failing_write (execute_reachable hc) (quiet_of_all hdone) "Z_WRITE" [] (some "T")⟩

end RfcMcp
