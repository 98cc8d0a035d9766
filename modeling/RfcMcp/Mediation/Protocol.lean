import RfcMcp.Framework.Protocol
import RfcMcp.Mcp.Server

namespace RfcMcp

open Framework Framework.Protocol

/-- What a thread has been cleared for: what it has logged, and the transaction it has opened. -/
structure Clearance where
  granted : List LogRecord := []
  created : Option Entry := none

/-- `authorize(functionName, mode, parameters)` has succeeded, and its record has been written. -/
structure Authorized (cfg : AppSettings) (g : Clearance) (functionName mode : String)
    (parameters : PyDict) : Prop where
  allowed : ExecutionPolicy.authorizeUnlogged cfg.text cfg.policy functionName mode
    (ExecutionPolicy.genericTableReaderTarget cfg.text cfg.policy functionName parameters) = .ok ()
  logged : ExecutionPolicy.allowedRecord functionName mode
    (ExecutionPolicy.genericTableReaderTarget cfg.text cfg.policy functionName parameters) ∈
      g.granted

/-- `kwargs` is what `build_call_kwargs` makes of authorized parameters. -/
def Cleared (cfg : AppSettings) (g : Clearance) (functionName mode : String) (kwargs : PyDict)
    (parameters : PyDict) : Prop :=
  Authorized cfg g functionName mode parameters ∧
    ∃ interface, buildCallKwargs cfg.text interface parameters = .ok kwargs

/-- The requests that sweep expired transactions. -/
def Request.sweeps : Request → Bool
  | .callTransactional _ _ _ _ => true
  | .commit _ _ => true
  | .rollback _ => true
  | .expireTransactions => true
  | _ => false

def discoveryFunctions : List String :=
  ["RFC_FUNCTION_SEARCH", "RFC_GET_FUNCTION_INTERFACE", "RFC_GET_STRUCTURE_DEFINITION"]

/-- What a request may issue an RFC for. -/
def Request.MayIssue (cfg : AppSettings) (request : Request) (g : Clearance) (f : String)
    (kwargs : PyDict) : Purpose → Prop
  | .read => ∃ parameters, Cleared cfg g f "read" kwargs parameters
  | .discovery => f ∈ discoveryFunctions
  | .write e => ∃ parameters id, request = .callTransactional f parameters "write" id ∧
      (id = some e.1 ∨ id = none ∧ g.created = some e) ∧ Cleared cfg g f "write" kwargs parameters
  | .commit e => (∃ wait, request = .commit e.1 wait) ∧ f = "BAPI_TRANSACTION_COMMIT" ∧
      ExecutionPolicy.controlAllowedRecord ∈ g.granted ∧ cfg.policy.mode = .readWrite
  | .rollback e => request = .rollback e.1 ∧ f = "BAPI_TRANSACTION_ROLLBACK" ∧
      ExecutionPolicy.controlAllowedRecord ∈ g.granted ∧ cfg.policy.mode = .readWrite
  | .expire _ => request.sweeps = true ∧ f = "BAPI_TRANSACTION_ROLLBACK"
  | .shutdown _ => request = .close ∧ f = "BAPI_TRANSACTION_ROLLBACK"

/-- The discipline of a request towards the policy: an RFC is cleared before it is issued, and a
transaction is opened for an authorized write only. -/
@[reducible] def mediation (cfg : AppSettings) (request : Request) : Protocol Effects where
  Local := Clearance
  start := {}
  allows := fun o g => match o with
    | .rfcBegin _ p f kwargs => request.MayIssue cfg g f kwargs p
    | .register _ _ => ∃ f parameters id, request = .callTransactional f parameters "write" id ∧
        Authorized cfg g f "write" parameters
    | _ => True
  after := fun o _ g => match o with
    | .log record => { g with granted := record :: g.granted }
    | .register id a => { g with created := some (id, a) }
    | _ => g

section Rules

/-- What has been granted is kept, and nothing is opened. -/
structure Clearance.Extends (g g' : Clearance) : Prop where
  granted : g.granted ⊆ g'.granted
  created : g'.created = g.created

theorem Clearance.Extends.refl (g : Clearance) : g.Extends g := ⟨List.Subset.refl _, rfl⟩

theorem Clearance.Extends.trans {g g' g'' : Clearance} (h : g.Extends g') (h' : g'.Extends g'') :
    g.Extends g'' :=
  ⟨List.Subset.trans h.granted h'.granted, h'.created.trans h.created⟩

theorem Authorized.mono {cfg : AppSettings} {g g' : Clearance} {f mode : String}
    {parameters : PyDict} (h : Authorized cfg g f mode parameters) (hg : g.Extends g') :
    Authorized cfg g' f mode parameters :=
  ⟨h.allowed, hg.granted h.logged⟩

theorem Cleared.mono {cfg : AppSettings} {g g' : Clearance} {f mode : String}
    {kwargs parameters : PyDict} (h : Cleared cfg g f mode kwargs parameters)
    (hg : g.Extends g') : Cleared cfg g' f mode kwargs parameters :=
  ⟨h.1.mono hg, h.2⟩

variable (cfg : AppSettings) (request : Request) {α β : Type}

/-- From `g` on `x` keeps to the discipline, and opens nothing. -/
def Mediated (x : Act α) (g : Clearance) : Prop :=
  (mediation cfg request).Meets x (fun _ g' => g.Extends g') (fun _ g' => g.Extends g') g

variable {cfg request} {g : Clearance}

theorem mediated_pure (a : α) : Mediated cfg request (pure a) g := .refl g

theorem mediated_raise (exc : PyExc) : Mediated cfg request (Action.raise exc : Act α) g := .refl g

theorem mediated_ofExcept (r : Except PyExc α) : Mediated cfg request (Action.ofExcept r) g := by
  unfold Mediated
  rw [meets_ofExcept]
  exact ⟨fun _ _ => .refl g, fun _ _ => .refl g⟩

theorem mediated_bind {x : Act α} {f : α → Act β} (hx : Mediated cfg request x g)
    (hf : ∀ a g', g.Extends g' → Mediated cfg request (f a) g') :
    Mediated cfg request (x >>= f) g := by
  unfold Mediated
  rw [meets_bind]
  refine Meets.mono hx (fun a g' hg => ?_) fun _ _ hg => hg
  exact Meets.mono (hf a g' hg) (fun _ _ h => hg.trans h) fun _ _ h => hg.trans h

theorem mediated_ofExcept_bind {r : Except PyExc α} {f : α → Act β}
    (hf : ∀ a, r = .ok a → Mediated cfg request (f a) g) :
    Mediated cfg request (Action.ofExcept r >>= f) g := by
  cases r with
  | error exc => exact mediated_raise exc
  | ok a => exact hf a rfl

theorem mediated_ite {c : Prop} [Decidable c] {x y : Act α} (hx : Mediated cfg request x g)
    (hy : Mediated cfg request y g) : Mediated cfg request (if c then x else y) g := by
  by_cases hc : c
  · rw [if_pos hc]
    exact hx
  · rw [if_neg hc]
    exact hy

theorem mediated_tryExcept {x : Act α} {handler : PyExc → Act α} (hx : Mediated cfg request x g)
    (hhandler : ∀ exc g', g.Extends g' → Mediated cfg request (handler exc) g') :
    Mediated cfg request (x.tryExcept handler) g := by
  unfold Mediated
  rw [meets_tryExcept]
  refine Meets.mono hx (fun _ _ hg => hg) fun exc g' hg => ?_
  exact Meets.mono (hhandler exc g' hg) (fun _ _ h => hg.trans h) fun _ _ h => hg.trans h

theorem mediated_tryFinally {x : Act α} {last : Act Unit} (hx : Mediated cfg request x g)
    (hlast : ∀ g', g.Extends g' → Mediated cfg request last g') :
    Mediated cfg request (x.tryFinally last) g := by
  unfold Mediated
  rw [meets_tryFinally]
  refine Meets.mono hx (fun _ g' hg => ?_) fun _ g' hg => ?_ <;>
    exact Meets.mono (hlast g' hg) (fun _ _ h => hg.trans h) fun _ _ h => hg.trans h

/-- Operations that the discipline is not about. -/
def Op.isPlain : Op → Bool
  | .rfcBegin _ _ _ _ => false
  | .register _ _ => false
  | .log _ => false
  | _ => true

theorem mediated_op {o : Op} (ho : o.isPlain = true) : Mediated cfg request (perform o) g := by
  cases o with
  | rfcBegin _ _ _ _ | register _ _ | log _ => cases ho
  | _ => exact ⟨trivial, fun _ => .refl g⟩

theorem mediated_log (record : LogRecord) : Mediated cfg request (log record) g :=
  ⟨trivial, fun _ => ⟨List.subset_cons_self _ _, rfl⟩⟩

theorem mediated_begin {conn : Conn} {p : Purpose} {f : String} {kwargs : PyDict}
    (hmay : request.MayIssue cfg g f kwargs p) :
    Mediated cfg request (perform (.rfcBegin conn p f kwargs)) g :=
  ⟨hmay, fun _ => .refl g⟩

theorem mediated_iff (x : Act α) :
    Mediated cfg request x g ↔
      (mediation cfg request).Meets x (fun _ g' => g.Extends g') (fun _ g' => g.Extends g') g :=
  Iff.rfl

-- the elaborator would run programs to see whether a goal is an implication
attribute [irreducible] Mediated

theorem mediated_withLock {l : LockId} {x : Act α}
    (hx : ∀ g', g.Extends g' → Mediated cfg request x g') :
    Mediated cfg request (withLock l x) g :=
  mediated_bind (mediated_op rfl) fun _ g' hg =>
    mediated_tryFinally (hx g' hg) fun _ _ => mediated_op rfl

theorem mediation_step {o : Op} {ok : o.Res → Clearance → Prop} {err : PyExc → Clearance → Prop}
    (ho : (mediation cfg request).allows o g)
    (hok : ∀ r, ok r ((mediation cfg request).after o r g)) :
    (mediation cfg request).Meets (perform o) ok err g :=
  ⟨ho, hok⟩

/-- The discipline is not about locks. -/
theorem meets_locked {l : LockId} {o : Op} {ok : o.Res → Clearance → Prop}
    {err : PyExc → Clearance → Prop} (ho : (mediation cfg request).allows o g)
    (hok : ∀ r, ok r ((mediation cfg request).after o r g)) :
    (mediation cfg request).Meets (withLock l (perform o)) ok err g := by
  unfold withLock
  rw [meets_bind]
  refine mediation_step trivial fun _ => ?_
  rw [meets_tryFinally]
  exact mediation_step ho fun r => mediation_step trivial fun _ => hok r

theorem mediated_section {l : LockId} {o : Op} (ho : o.isPlain = true) :
    Mediated cfg request (withLock l (perform o)) g :=
  mediated_withLock fun _ _ => mediated_op ho

theorem mediated_forEach {items : List α} {body : α → Act Unit}
    (hbody : ∀ a ∈ items, ∀ g', g.Extends g' → Mediated cfg request (body a) g') :
    Mediated cfg request (Action.forEach items body) g := by
  induction items generalizing g with
  | nil => exact mediated_pure ()
  | cons a rest ih =>
    refine mediated_bind (hbody a (by simp) g (.refl g)) fun _ g' hg => ih fun b hb g'' hg' => ?_
    exact hbody b (by simp [hb]) g'' (hg.trans hg')

theorem mediated_collect {items : List α} {body : α → Act (List β)}
    (hbody : ∀ a g', g.Extends g' → Mediated cfg request (body a) g') :
    Mediated cfg request (Action.collect items body) g := by
  induction items generalizing g with
  | nil => exact mediated_pure []
  | cons a rest ih =>
    refine mediated_bind (hbody a g (.refl g)) fun _ g' hg => ?_
    refine mediated_bind (ih fun b g'' hg' => hbody b g'' (hg.trans hg')) fun _ _ _ => ?_
    exact mediated_pure _

end Rules

end RfcMcp
