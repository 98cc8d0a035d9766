import RfcMcp.Caching.Transparent
import RfcMcp.Demo
import RfcMcp.Execution.Blanks
import RfcMcp.Execution.Routine

namespace RfcMcp

open Framework Framework.Protocol

section Names

variable (T : PyText) {name : String}

theorem strip_eq_self {s : String} (h : ∀ c ∈ s.toList, isSpace c = false) : strip s = s := by
  have hdrop : ∀ cs : List Char, (∀ c ∈ cs, isSpace c = false) → cs.dropWhile isSpace = cs := by
    intro cs hcs
    cases cs with
    | nil => rfl
    | cons c cs => rw [List.dropWhile_cons, hcs c List.mem_cons_self, if_neg Bool.false_ne_true]
  unfold strip
  rw [hdrop s.toList h, hdrop s.toList.reverse (fun c hc => h c (List.mem_reverse.mp hc)),
    List.reverse_reverse, String.ofList_toList]

/-- `upper` keeps every blank. -/
theorem mem_upper_of_isSpace {c : Char} (hc : c ∈ name.toList) (hspace : isSpace c = true) :
    c ∈ (T.upper name).toList := by
  rw [toList_upper]
  refine List.mem_flatMap.mpr ⟨c, hc, ?_⟩
  rw [T.upperChar_space c hspace]
  exact List.mem_singleton.mpr rfl

/-- A name that in upper case has no blanks has none to strip. -/
theorem strip_of_upper (h : ∀ c ∈ (T.upper name).toList, isSpace c = false) :
    strip name = name := by
  apply strip_eq_self
  intro c hc
  cases hspace : isSpace c with
  | false => rfl
  | true =>
    have hkept := h c (mem_upper_of_isSpace T hc hspace)
    rw [hspace] at hkept
    cases hkept

namespace DemoConnection

theorem upper_name {F : String} (hF : F ∈ names) : T.upper F = F := by
  have hascii : names.all (fun F => F.toList.all fun c => c.toNat < 128) = true := by decide
  have hsame : names.all (fun F => String.ofList (F.toList.map Char.toUpper) = F) = true := by
    decide
  have hchars := List.all_eq_true.mp (List.all_eq_true.mp hascii F hF)
  rw [upper_ascii T fun c hc => of_decide_eq_true (hchars c hc)]
  exact of_decide_eq_true (List.all_eq_true.mp hsame F hF)

theorem branch_eq_some {F : String} (h : branch T name = some F) :
    F ∈ names ∧ T.upper (strip name) = F := by
  unfold branch at h
  by_cases hmem : T.upper (strip name) ∈ names
  · rw [if_pos hmem] at h
    have hF := Option.some.inj h
    exact ⟨hF ▸ hmem, hF⟩
  · rw [if_neg hmem] at h
    cases h

/-- The names of the interfaces have no blanks. -/
theorem strip_of_interface (h : T.upper name ∈ interfaces.map (·.1)) : strip name = name := by
  have hnone : (interfaces.map (·.1)).all (fun key => key.toList.all (!isSpace ·)) = true := by
    decide
  have hchars := List.all_eq_true.mp (List.all_eq_true.mp hnone _ h)
  exact strip_of_upper T fun c hc => Bool.not_eq_true' _ ▸ hchars c hc

/-- For a name that is not in `_INTERFACES` as it is, the demo knows no parameters. -/
theorem call_interface (h : T.upper name ∉ interfaces.map (·.1)) :
    call T "RFC_GET_FUNCTION_INTERFACE" [("FUNCNAME", .str name)] = .ok noInterface := by
  have hname : T.upper (strip "RFC_GET_FUNCTION_INTERFACE") = "RFC_GET_FUNCTION_INTERFACE" := by
    rw [show strip "RFC_GET_FUNCTION_INTERFACE" = "RFC_GET_FUNCTION_INTERFACE" by decide]
    exact upper_name T (by decide)
  have hnone : interfaces.lookup (T.upper name) = none := by
    refine List.lookup_eq_none_iff.mpr fun e he => bne_iff_ne.mpr ?_
    rintro heq
    exact h (List.mem_map.mpr ⟨e, he, heq.symm⟩)
  have hrequested : argument T [("FUNCNAME", .str name)] "FUNCNAME" "" = name := rfl
  unfold call
  simp only [hname, hrequested, hnone]
  rw [if_neg (by decide), if_pos trivial]
  rfl

end DemoConnection

end Names

section Honesty

/-- What a catalog over the demo backend may keep under a key. -/
def Discovered (key : String) (found : FunctionInterface) : Prop :=
  key ∉ DemoConnection.interfaces.map (·.1) → found.parameters = []

/-- The demo backend has answered the thread's RFCs, and the cache was filled from it. -/
structure DemoHonest (T : PyText) (trace : Trace Effects) : Prop where
  answers : ∀ conn f kwargs r, ⟨.rfcEnd conn f kwargs, r⟩ ∈ trace →
    r = DemoConnection.call T f kwargs
  cached : ∀ key found, ⟨.cacheGet .interface key, some found⟩ ∈ trace → Discovered key found

theorem DemoHonest.of_append {T : PyText} (later : Trace Effects) {trace : Trace Effects}
    (h : DemoHonest T (later ++ trace)) : DemoHonest T trace :=
  ⟨fun conn f kwargs r hdid => h.answers conn f kwargs r (List.mem_append_right _ hdid),
    fun key found hdid => h.cached key found (List.mem_append_right _ hdid)⟩

/-- The requests that look at a function of the demo backend. -/
inductive DemoRequest
  | call (functionName : String) (parameters : PyDict)
  | getInterface (functionName : String)

def DemoRequest.program (cfg : AppSettings) : DemoRequest → Act Answer
  | .call functionName parameters => do
    let value ← ExecutionInvoker.call cfg demoConnectionPool functionName parameters "read"
    pure (.result value)
  | .getInterface functionName => do
    let found ← ExecutionInvoker.getInterface cfg demoConnectionPool functionName
    pure (.interface found)

/-- The interface of a function is cached as it was discovered, and an RFC is issued for a call
that the policy allows, with arguments for an interface of the name as it was given. -/
def demoGuard (cfg : AppSettings) (request : DemoRequest) (o : Op) (trace : Trace Effects) : Prop :=
  match o with
  | .cacheSet .interface key found => DemoHonest cfg.text trace → Discovered key found
  | .rfcBegin _ .read f kwargs => ∃ parameters, request = .call f parameters ∧
      ExecutionPolicy.allows cfg.text cfg.policy f "read" parameters = true ∧
      (DemoHonest cfg.text trace → ∃ found, Discovered (cfg.text.upper f) found ∧
        buildCallKwargs cfg.text found parameters = .ok kwargs)
  | _ => True

@[reducible] def demonstrating (cfg : AppSettings) (request : DemoRequest) : Protocol Effects :=
  tracing (demoGuard cfg request)

/-- Operations that the guard says nothing about. -/
def Op.isUnwatched : Op → Bool
  | .cacheSet .interface _ _ | .rfcBegin _ .read _ _ => false
  | _ => true

end Honesty

section Programs

variable {α : Type} {cfg : AppSettings} {request : DemoRequest} {trace : Trace Effects} {f : String}

theorem guard_of_unwatched {o : Op} (ho : o.isUnwatched = true) (trace : Trace Effects) :
    demoGuard cfg request o trace := by
  cases o with
  | cacheSet id key value => cases id <;> first | exact trivial | cases ho
  | rfcBegin conn p f kwargs => cases p <;> first | exact trivial | cases ho
  | _ => exact trivial

theorem demo_op {o : Op} {ok : o.Res → Trace Effects → Prop} {err : PyExc → Trace Effects → Prop}
    (ho : o.isUnwatched = true) (hok : ∀ v, ok v (⟨o, v⟩ :: trace)) :
    (demonstrating cfg request).Meets (perform o) ok err trace :=
  traced_op (guard_of_unwatched ho trace) hok

/-- `J` stays true, whatever is done. -/
def Lasting (J : Trace Effects → Prop) : Prop := ∀ did trace, J trace → J (did :: trace)

theorem keeps_unwatched {J : Trace Effects → Prop} (hJ : Lasting J) {o : Op}
    (ho : o.isUnwatched = true) : (demonstrating cfg request).Keeps J (perform o) :=
  ⟨fun trace h => demo_op ho fun v => hJ ⟨o, v⟩ trace h⟩

theorem keeps_demoCall {J : Trace Effects → Prop} (hJ : Lasting J) (f : String) (params : PyDict) :
    (demonstrating cfg request).Keeps J (PooledCaller.call cfg demoConnectionPool f params) := by
  refine keeps_bind (keeps_unwatched hJ rfl) fun conn => ?_
  refine keeps_tryFinally (keeps_tryExcept ?_ fun exc => keeps_raise _) ?_
  · refine keeps_bind (keeps_unwatched hJ rfl) fun _ => ?_
    exact keeps_bind (keeps_unwatched hJ rfl) fun r => keeps_ofExcept r
  · exact keeps_unwatched (o := .closeConnection conn) hJ rfl

theorem discovered_doGetInterface : (demonstrating cfg request).Meets
    (FunctionCatalog.doGetInterface cfg (PooledCaller.call cfg demoConnectionPool) f)
    (fun found trace => DemoHonest cfg.text trace → Discovered (cfg.text.upper f) found)
    (fun _ _ => True) trace := by
  unfold FunctionCatalog.doGetInterface PooledCaller.call
  rw [meets_bind]
  change (demonstrating cfg request).Meets (DemoConnectionPool.acquire _) _ _ _
  unfold DemoConnectionPool.acquire Conn.call
  rw [meets_bind]
  refine demo_op rfl fun conn => ?_
  rw [meets_tryFinally, meets_tryExcept, meets_bind]
  refine demo_op rfl fun _ => ?_
  rw [meets_bind]
  refine demo_op rfl fun answer => ?_
  rw [meets_ofExcept]
  constructor
  · intro raw hraw
    subst hraw
    refine demo_op (o := .closeConnection conn) rfl fun _ => ?_
    by_cases hkey : cfg.text.upper f ∈ DemoConnection.interfaces.map (·.1)
    · have hlasting : Lasting fun _ => True := fun _ _ _ => trivial
      refine ((keeps_interfaceOf (keeps_demoCall hlasting) f raw).meets _ trivial).mono
        (fun found trace _ _ hnot => absurd hkey hnot) fun _ _ _ => trivial
    · by_cases hnone : raw = DemoConnection.noInterface
      · subst hnone
        exact fun _ _ => rfl
      · have hlasting : Lasting fun trace => ¬ DemoHonest cfg.text trace := by
          intro did trace hnot hhonest
          exact hnot (DemoHonest.of_append [did] hhonest)
        refine ((keeps_interfaceOf (keeps_demoCall hlasting) f raw).meets _ ?_).mono
          (fun found trace hnot hhonest => absurd hhonest hnot) fun _ _ _ => trivial
        intro hhonest
        have hanswer := hhonest.answers conn _ _ _ (List.mem_cons_of_mem _ List.mem_cons_self)
        rw [DemoConnection.call_interface cfg.text hkey] at hanswer
        exact hnone (Except.ok.inj hanswer)
  · intro exc _
    exact demo_op (o := .closeConnection conn) rfl fun _ => trivial

theorem discovered_getInterface : (demonstrating cfg request).Meets
    (ExecutionInvoker.getInterface cfg demoConnectionPool f)
    (fun found trace => DemoHonest cfg.text trace → Discovered (cfg.text.upper f) found)
    (fun _ _ => True) trace := by
  unfold ExecutionInvoker.getInterface FunctionCatalog.getInterface TTLCache.getOrSet TTLCache.get
    withLock
  rw [meets_bind, meets_bind]
  refine demo_op rfl fun _ => ?_
  rw [meets_tryFinally]
  refine demo_op rfl fun cached => demo_op rfl fun _ => ?_
  cases cached with
  | some found =>
    intro hhonest
    exact hhonest.cached _ _ (List.mem_cons_of_mem _ List.mem_cons_self)
  | none =>
    rw [meets_bind]
    refine discovered_doGetInterface.mono (fun found trace hfound => ?_) fun _ _ _ => trivial
    unfold TTLCache.set withLock
    rw [meets_bind, meets_bind]
    refine demo_op rfl fun _ => ?_
    rw [meets_tryFinally]
    refine traced_op (fun hhonest => ?_) fun _ => demo_op rfl fun _ => fun hhonest => ?_
    · exact hfound (hhonest.of_append [_])
    · exact hfound (hhonest.of_append [_, _, _])

theorem demo_authorize {parameters : PyDict} :
    (demonstrating cfg request).Meets
      (ExecutionPolicy.authorize cfg.text cfg.policy f "read" parameters)
      (fun _ _ => ExecutionPolicy.allows cfg.text cfg.policy f "read" parameters = true)
      (fun _ _ => True) trace := by
  cases hallows : ExecutionPolicy.allows cfg.text cfg.policy f "read" parameters with
  | true =>
    rw [ExecutionPolicy.authorize_of_allows hallows]
    exact demo_op (o := .log _) rfl fun _ => rfl
  | false =>
    cases ExecutionPolicy.authorize_of_not_allows hallows with
    | inl hlogged =>
      obtain ⟨record, exc, hauthorize⟩ := hlogged
      rw [hauthorize, meets_bind]
      exact demo_op (o := .log _) rfl fun _ => trivial
    | inr hraised =>
      obtain ⟨exc, hauthorize⟩ := hraised
      rw [hauthorize]
      trivial

theorem keeps_demoLimits {J : Trace Effects → Prop} (hJ : Lasting J) (f mode : String)
    (result : PyDict) : (demonstrating cfg request).Keeps J
      (ExecutionInvoker.applyResultLimits cfg f mode result) := by
  unfold ExecutionInvoker.applyResultLimits
  split
  · exact keeps_pure _
  · exact keeps_bind (keeps_unwatched (o := .log _) hJ rfl) fun _ => keeps_raise _
  · exact keeps_raise _

theorem demo_call (parameters : PyDict) : (demonstrating cfg (.call f parameters)).Meets
    (ExecutionInvoker.call cfg demoConnectionPool f parameters "read") (fun _ _ => True)
    (fun _ _ => True) trace := by
  have hlasting : Lasting fun _ => True := fun _ _ _ => trivial
  unfold ExecutionInvoker.call
  rw [if_neg (not_not.mpr rfl), meets_bind]
  refine demo_authorize.mono (fun _ trace hallows => ?_) fun _ _ _ => trivial
  rw [meets_bind]
  refine discovered_getInterface.mono (fun found trace hfound => ?_) fun _ _ _ => trivial
  rw [meets_bind, meets_ofExcept]
  refine And.intro (fun kwargs hkwargs => ?_) fun _ _ => trivial
  rw [meets_bind]
  change (demonstrating cfg (.call f parameters)).Meets (DemoConnectionPool.acquire _) _ _ _
  unfold DemoConnectionPool.acquire ExecutionInvoker.callOnConnection Conn.call
  rw [meets_bind]
  refine demo_op rfl fun conn => ?_
  rw [meets_tryFinally, meets_bind, meets_tryExcept, meets_bind]
  refine traced_op ⟨parameters, rfl, hallows, fun hhonest => ?_⟩ fun _ => ?_
  · exact ⟨found, hfound (hhonest.of_append [_]), hkwargs⟩
  rw [meets_bind]
  refine demo_op rfl fun answer => ?_
  rw [meets_ofExcept]
  constructor
  · intro result _
    rw [meets_bind]
    refine demo_op (o := .log _) rfl fun _ => ?_
    refine demo_op (o := .closeConnection conn) rfl fun _ => ?_
    exact (keeps_demoLimits hlasting f "read" result).meets _ trivial
  · intro exc _
    rw [meets_bind]
    refine demo_op (o := .log _) rfl fun _ => ?_
    exact demo_op (o := .closeConnection conn) rfl fun _ => trivial

theorem demo_program (request : DemoRequest) : (demonstrating cfg request).Follows
    (fun _ _ => True) (request.program cfg) [] := by
  have hmeets : (demonstrating cfg request).Meets (request.program cfg) (fun _ _ => True)
      (fun _ _ => True) [] := by
    cases request with
    | call f parameters =>
      unfold DemoRequest.program
      rw [meets_bind]
      exact (demo_call parameters).mono (fun _ _ _ => trivial) fun _ _ _ => trivial
    | getInterface f =>
      unfold DemoRequest.program
      rw [meets_bind]
      exact discovered_getInterface.mono (fun _ _ _ => trivial) fun _ _ _ => trivial
  exact Follows.mono hmeets fun _ _ _ => trivial

end Programs

end RfcMcp
