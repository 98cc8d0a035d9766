import RfcMcp.Framework.Retry
import RfcMcp.Mcp.ToolsSource

namespace RfcMcp

open Framework

section Outcomes

/-- A 2xx response. -/
def isSuccess : Except GetError HttpResponse → Bool
  | .ok response => decide (200 ≤ response.statusCode ∧ response.statusCode ≤ 299)
  | .error _ => false

/-- A 5xx response or a transport error. -/
def isTransient : Except GetError HttpResponse → Bool
  | .ok response => decide (500 ≤ response.statusCode ∧ response.statusCode ≤ 599)
  | .error (.transport _ _) => true
  | .error (.other _ _) => false

end Outcomes

section Loop

variable {outcomes : ℕ → Except GetError HttpResponse}

end Loop

section Names

def encodable (name : CodePoints) : Bool := name.all fun c => !isSurrogate c

/-- The names that go into the URI. -/
def SourceObject.names (object : SourceObject) : List CodePoints :=
  match object.objectType with
  | .functionModule => [object.functionGroup.getD [], object.objectName]
  | _ => [object.objectName]

def SourceObject.encodable (object : SourceObject) : Bool := object.names.all RfcMcp.encodable

/-- A URI is made of names without surrogates, and of no others. -/
structure UriOf (names : List CodePoints) (uri : Except SourceExc String) : Prop where
  ok : names.all encodable = true → ∃ text, uri = .ok text
  error : names.all encodable = false → ∃ position, uri = .error (.unicodeEncode position)

theorem UriOf.bind {names names' : List CodePoints} {uri : Except SourceExc String}
    {next : String → Except SourceExc String} (h : UriOf names uri)
    (hnext : ∀ text, UriOf names' (next text)) : UriOf (names ++ names') (uri >>= next) := by
  constructor
  · intro hall
    rw [List.all_append, Bool.and_eq_true_iff] at hall
    obtain ⟨text, rfl⟩ := h.ok hall.1
    exact (hnext text).ok hall.2
  · intro hall
    rw [List.all_append, Bool.and_eq_false_iff] at hall
    cases hnames : names.all encodable with
    | false =>
      obtain ⟨position, rfl⟩ := h.error hnames
      exact ⟨position, rfl⟩
    | true =>
      obtain ⟨text, rfl⟩ := h.ok hnames
      exact (hnext text).error (hall.resolve_left (by simp [hnames]))

end Names

section Fallback

/-- The requests that `_get_with_retry` may make. -/
def requestLimit : Option ADTConnectionSettings → ℕ
  | none => 0
  | some settings => settings.maxRetries + 1

/-- Attempt `n` is allowed, and comes after 5xx responses and transport errors only. -/
def Reached (limit : ℕ) (outcomes : ℕ → Except GetError HttpResponse) (n : ℕ) : Prop :=
  n < limit ∧ ∀ i < n, isTransient (outcomes i) = true

/-- Log records, and then `x`. -/
def logged {α : Type} : List LogRecord → Action Effects SourceExc α → Action Effects SourceExc α
  | [], x => x
  | record :: records, x => .call (.log record) fun _ => logged records x

/-- Reading a source fails only if both transports fail. -/
structure FallsBack (adtClient : Option ADTConnectionSettings) (object : SourceObject)
    (outcomes : ℕ → Except GetError HttpResponse) (rfc : Act String) : Prop where
  requests : (readSource adtClient object outcomes rfc).1 ≤ requestLimit adtClient
  continues : ∀ i, i + 1 < (readSource adtClient object outcomes rfc).1 →
    isTransient (outcomes i) = true
  /-- The first 2xx response, if the attempts get to it, is served. -/
  adt : ∀ n response, Reached (requestLimit adtClient) outcomes n → outcomes n = .ok response →
    isSuccess (.ok response) = true →
      (readSource adtClient object outcomes rfc).2 = pure (response.text, .adt)
  /-- Otherwise the RFC read is all that is left to do. -/
  rfc : (∀ n, Reached (requestLimit adtClient) outcomes n → isSuccess (outcomes n) = false) →
    ∃ records, (readSource adtClient object outcomes rfc).2 = logged records (viaRfc rfc)

variable {object : SourceObject} {settings : ADTConnectionSettings}
  {outcomes : ℕ → Except GetError HttpResponse} {rfc : Act String}

theorem logged_ne_raise {records : List LogRecord} {exc : SourceExc}
    (hexc : ∀ e, exc ≠ .rfc e) : logged records (viaRfc rfc) ≠ Action.raise exc := by
  intro h
  cases records with
  | cons record records => cases h
  | nil =>
    cases rfc with
    | call o next => cases h
    | ret r =>
      cases r with
      | ok source => cases h
      | error e => cases h; exact hexc e rfl

/-- Nothing but the error of the RFC read reaches the caller. -/
theorem FallsBack.raised {adtClient : Option ADTConnectionSettings} {exc : SourceExc}
    (h : FallsBack adtClient object outcomes rfc)
    (hraise : (readSource adtClient object outcomes rfc).2 = Action.raise exc) :
    ∃ e, exc = .rfc e := by
  by_cases hserved : ∀ n, Reached (requestLimit adtClient) outcomes n →
      isSuccess (outcomes n) = false
  · obtain ⟨records, hrecords⟩ := h.rfc hserved
    by_contra hnot
    exact logged_ne_raise (fun e he => hnot ⟨e, he⟩) (hrecords.symm.trans hraise)
  · obtain ⟨n, hn⟩ := not_forall.mp hserved
    obtain ⟨hreached, hsuccess⟩ := Classical.not_imp.mp hn
    cases houtcome : outcomes n with
    | error exc =>
      rw [houtcome] at hsuccess
      exact absurd rfl hsuccess
    | ok response =>
      have hok : isSuccess (.ok response) = true := by
        rw [houtcome] at hsuccess
        exact eq_true_of_ne_false hsuccess
      have hadt := h.adt n response hreached houtcome hok
      rw [hraise] at hadt
      cases hadt

end Fallback

end RfcMcp
