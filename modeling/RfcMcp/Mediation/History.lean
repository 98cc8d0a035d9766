import RfcMcp.Custody.History
import RfcMcp.Mediation.Programs

namespace RfcMcp

open Framework Framework.System

variable {cfg : AppSettings} {c : Run cfg} {t : ℕ}

theorem program_mediated (request : Request) :
    (mediation cfg request).Follows (fun _ _ => True)
      (request.program cfg (connectionPool cfg)) {} :=
  Protocol.Follows.mono (program_kept request) fun _ _ _ => trivial

/-- What a request has been cleared for at some point of its run. -/
def clearance (cfg : AppSettings) (request : Request) (t : ℕ) (h : History Request) : Clearance :=
  localOf (Y := server cfg) (mediation cfg request) t h

/-- Every RFC of a run was one that its request may issue, at the time. -/
theorem issued_mayIssue (h : Reachable c) {later earlier : History Request} {conn : Conn}
    {p : Purpose} {f : String} {kwargs : PyDict}
    (hh : c.history = later ++ .did t (.rfcBegin conn p f kwargs) () :: earlier) :
    ∃ request rest, c.threads[t]? = some (request, rest) ∧
      request.MayIssue cfg (clearance cfg request t earlier) f kwargs p :=
  h.allowed (P := mediation cfg) program_mediated hh

/-- Every transaction was opened for an authorized write. -/
theorem registered_authorized (h : Reachable c) {later earlier : History Request} {id : TxId}
    {a : ActiveTransaction} (hh : c.history = later ++ .did t (.register id a) () :: earlier) :
    ∃ request rest, c.threads[t]? = some (request, rest) ∧
      ∃ f parameters id', request = .callTransactional f parameters "write" id' ∧
        Authorized cfg (clearance cfg request t earlier) f "write" parameters :=
  h.allowed (P := mediation cfg) program_mediated hh

/-- What has been granted is in the log of the thread. -/
theorem granted_logged {request : Request} {h : History Request} {record : LogRecord}
    (hrecord : record ∈ (clearance cfg request t h).granted) : .did t (.log record) () ∈ h := by
  induction h with
  | nil => cases hrecord
  | cons ev h ih =>
    cases ev with
    | start u r => exact List.mem_cons_of_mem _ (ih hrecord)
    | did u o v =>
      unfold clearance at hrecord ih
      by_cases hu : u = t
      · subst hu
        rw [localOf_did_self] at hrecord
        cases o with
        | log record' =>
          rcases List.mem_cons.mp hrecord with rfl | hold
          · exact List.mem_cons_self
          · exact List.mem_cons_of_mem _ (ih hold)
        | _ => exact List.mem_cons_of_mem _ (ih hrecord)
      · rw [localOf_did_ne _ hu] at hrecord
        exact List.mem_cons_of_mem _ (ih hrecord)

/-- What a request has opened is in the table's records. -/
theorem created_registered {request : Request} {h : History Request} {e : Entry}
    (he : (clearance cfg request t h).created = some e) : e ∈ recordOf Op.registers t h := by
  induction h with
  | nil => cases he
  | cons ev h ih =>
    cases ev with
    | start u r => exact ih he
    | did u o v =>
      unfold clearance at he ih
      by_cases hu : u = t
      · subst hu
        rw [localOf_did_self] at he
        rw [recordOf_did_self, List.mem_append]
        cases o with
        | register id a =>
          cases he
          exact .inl List.mem_cons_self
        | _ => exact .inr (ih he)
      · rw [localOf_did_ne _ hu] at he
        rw [recordOf_did_ne hu]
        exact ih he

end RfcMcp
