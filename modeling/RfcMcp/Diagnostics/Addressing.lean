import RfcMcp.Diagnostics.Report
import RfcMcp.Framework.Runs
import RfcMcp.Mcp.Server

namespace RfcMcp

open Framework SAPConnectionFields Diagnostics

/-- The ways to address a system. -/
inductive AddressingMode
  | direct
  | loadBalanced
deriving DecidableEq, Repr

namespace AddressingMode

def keys : AddressingMode → List String
  | .direct => ["ashost", "sysnr"]
  | .loadBalanced => ["mshost", "msserv", "group", "r3name"]

def other : AddressingMode → AddressingMode
  | .direct => .loadBalanced
  | .loadBalanced => .direct

/-- The validator found all fields of the mode. -/
def complete (s : SAPConnectionFields) : AddressingMode → Bool
  | .direct => s.direct
  | .loadBalanced => s.loadBalanced

/-- The check in which the diagnostics report the mode. -/
def reported : AddressingMode → DiagnosticCheck
  | .direct => ⟨"configuration", .pass, "Valid direct application server settings; " ++
      "credential values are intentionally hidden."⟩
  | .loadBalanced => ⟨"configuration", .pass, "Valid message server settings; " ++
      "credential values are intentionally hidden."⟩

end AddressingMode

section Usable

variable {T : PyText}

/-- The keyword arguments have all keys of `mode`, with text, and none of the other mode. -/
structure AddressedBy (mode : AddressingMode) (kwargs : PyDict) : Prop where
  full : ∀ key ∈ mode.keys, ∃ text, text ≠ "" ∧ kwargs.get? key = some (.str text)
  only : ∀ key ∈ mode.other.keys, kwargs.get? key = none

/-- Whatever comes out of the diagnostics for `s` reports `mode`. -/
def Reports (s : SAPConnectionSettings T) (mode : AddressingMode) : Prop :=
  ∀ (settings : DiagnosticSettings T) (connect : Bool) (pyrfcProbe : Except PyExc Unit)
    (poolFactory : SAPConnectionSettings T → ConnectionManager) (ping : Conn → Except PyExc Unit)
    (cfg : AppSettings) (t : ℕ) (shared shared' : Shared) (report : DiagnosticReport),
    settings.backend = .sap → settings.sapSettings = .ok s →
    Outcome (server cfg) t shared (runDiagnostics settings connect pyrfcProbe poolFactory ping)
      (.ok report) shared' →
    report.checks.find? (·.name == "configuration") = some mode.reported

/-- Settings with which a connection can be opened, in the mode that is validated and reported. -/
def Usable (s : SAPConnectionSettings T) : Prop :=
  ∃ mode kwargs, s.toPyrfcKwargs = .ok kwargs ∧ mode.complete s.toSAPConnectionFields = true ∧
    AddressedBy mode kwargs ∧ Reports s mode

end Usable

section Kwargs

variable {s : SAPConnectionFields}

theorem text_of_isGiven {text : Option String} (h : isGiven text = true) :
    ∃ v, v ≠ "" ∧ text = some v := by
  cases text with
  | none => cases h
  | some v =>
    have hv : v ≠ "" := by simpa [isGiven] using h
    exact ⟨v, hv, rfl⟩

theorem toPyrfcKwargs_direct {sysnr : String} (hashost : isGiven s.ashost = true)
    (hsysnr : s.sysnr = some sysnr) (hne : sysnr ≠ "") :
    ∃ kwargs, s.toPyrfcKwargs = .ok kwargs ∧ AddressedBy .direct kwargs := by
  obtain ⟨ashost, hgiven, heq⟩ := text_of_isGiven hashost
  unfold toPyrfcKwargs
  rw [if_pos hashost, hsysnr, heq]
  refine ⟨_, rfl, ?_, ?_⟩
  · intro key hkey
    simp only [AddressingMode.keys, List.mem_cons, List.not_mem_nil, or_false] at hkey
    rcases hkey with rfl | rfl
    · exact ⟨ashost, hgiven, rfl⟩
    · exact ⟨sysnr, hne, rfl⟩
  · intro key hkey
    simp only [AddressingMode.other, AddressingMode.keys, List.mem_cons, List.not_mem_nil,
      or_false] at hkey
    rcases hkey with rfl | rfl | rfl | rfl <;> rfl

theorem toPyrfcKwargs_loadBalanced (hashost : isGiven s.ashost = false)
    (h : s.loadBalanced = true) :
    ∃ kwargs, s.toPyrfcKwargs = .ok kwargs ∧ AddressedBy .loadBalanced kwargs := by
  simp only [loadBalanced, Bool.and_eq_true] at h
  obtain ⟨⟨⟨hmshost, hmsserv⟩, hgroup⟩, hr3name⟩ := h
  obtain ⟨mshost, hmshost', hmshostEq⟩ := text_of_isGiven hmshost
  obtain ⟨msserv, hmsserv', hmsservEq⟩ := text_of_isGiven hmsserv
  obtain ⟨group, hgroup', hgroupEq⟩ := text_of_isGiven hgroup
  obtain ⟨r3name, hr3name', hr3nameEq⟩ := text_of_isGiven hr3name
  unfold toPyrfcKwargs
  rw [if_neg (by simp [hashost]), hmshostEq, hmsservEq, hgroupEq, hr3nameEq]
  refine ⟨_, rfl, ?_, ?_⟩
  · intro key hkey
    simp only [AddressingMode.keys, List.mem_cons, List.not_mem_nil, or_false] at hkey
    rcases hkey with rfl | rfl | rfl | rfl
    · exact ⟨mshost, hmshost', rfl⟩
    · exact ⟨msserv, hmsserv', rfl⟩
    · exact ⟨group, hgroup', rfl⟩
    · exact ⟨r3name, hr3name', rfl⟩
  · intro key hkey
    simp only [AddressingMode.other, AddressingMode.keys, List.mem_cons, List.not_mem_nil,
      or_false] at hkey
    rcases hkey with rfl | rfl <;> rfl

/-- Without a system number the host alone is enough to choose the direct mode, and to fail. -/
theorem toPyrfcKwargs_half (hashost : isGiven s.ashost = true) (hsysnr : s.sysnr = none) :
    s.toPyrfcKwargs = .error (.other "AssertionError" "") := by
  unfold toPyrfcKwargs
  rw [if_pos hashost, hsysnr]
  rfl

theorem exactly_one (h : s.checkAddressingMode = .ok ()) : s.direct = !s.loadBalanced := by
  unfold checkAddressingMode at h
  cases hdirect : s.direct <;> cases hbalanced : s.loadBalanced <;> simp_all

end Kwargs

section Reports

variable {T : PyText} {cfg : AppSettings} {t : ℕ} {shared shared' : Shared}
  {settings : DiagnosticSettings T} {connect : Bool} {ping : Conn → Except PyExc Unit}
  {report : DiagnosticReport}

/-- The checks made so far stay the first ones. -/
theorem finish_checks {pool : ConnectionManager} {checks : List DiagnosticCheck}
    (h : Outcome (server cfg) t shared (finish settings connect pool ping checks) (.ok report)
      shared') : ∃ more, report.checks = checks ++ more := by
  unfold finish at h
  cases connect with
  | false =>
    obtain ⟨hreport, _⟩ := outcome_ret.mp h
    cases hreport
    exact ⟨_, List.append_assoc _ _ _⟩
  | true =>
    obtain ⟨trace, hruns⟩ := h
    obtain ⟨_, result, _, _, _, _, hclose⟩ := runs_ok hruns
    obtain ⟨_, _, _, _, _, _, hlast⟩ := runs_ok hclose
    obtain ⟨_, hreport, _⟩ := runs_ret hlast
    cases hreport
    exact ⟨_, List.append_assoc _ _ _⟩

theorem runDiagnostics_checks {s : SAPConnectionSettings T} {pyrfcProbe : Except PyExc Unit}
    {poolFactory : SAPConnectionSettings T → ConnectionManager} (hbackend : settings.backend = .sap)
    (hsettings : settings.sapSettings = .ok s)
    (h : Outcome (server cfg) t shared (runDiagnostics settings connect pyrfcProbe poolFactory ping)
      (.ok report) shared') : ∃ more, report.checks =
        backendCheck settings :: configurationCheck s.toSAPConnectionFields :: more := by
  unfold runDiagnostics at h
  simp only [hbackend, hsettings] at h
  cases pyrfcProbe with
  | error exc =>
    obtain ⟨hreport, _⟩ := outcome_ret.mp h
    cases hreport
    exact ⟨_, rfl⟩
  | ok loaded =>
    obtain ⟨more, hmore⟩ := finish_checks h
    exact ⟨_, hmore⟩

theorem reports_of_check {s : SAPConnectionSettings T} {mode : AddressingMode}
    (h : configurationCheck s.toSAPConnectionFields = mode.reported) : Reports s mode := by
  intro settings connect pyrfcProbe poolFactory ping cfg t shared shared' report hbackend hsettings
    houtcome
  obtain ⟨more, hchecks⟩ := runDiagnostics_checks hbackend hsettings houtcome
  rw [hchecks, ← h]
  rfl

end Reports

section Settings

variable {T : PyText}

theorem sysnr_ne (s : SAPConnectionSettings T) {sysnr : String} (h : s.sysnr = some sysnr) :
    sysnr ≠ "" := by
  intro hempty
  have hdigits := s.sysnr_pattern sysnr h
  rw [hempty] at hdigits
  cases hdigits

theorem usable_direct (s : SAPConnectionSettings T) (hashost : isGiven s.ashost = true)
    {sysnr : String} (hsysnr : s.sysnr = some sysnr) : Usable s := by
  have hne := sysnr_ne s hsysnr
  obtain ⟨kwargs, hkwargs, haddressed⟩ := toPyrfcKwargs_direct hashost hsysnr hne
  have hcomplete : s.direct = true := by
    unfold direct
    rw [hashost, hsysnr]
    simp [isGiven, hne]
  refine ⟨.direct, kwargs, hkwargs, hcomplete, haddressed, reports_of_check ?_⟩
  unfold configurationCheck addressing
  rw [if_pos hashost]
  rfl

theorem usable_loadBalanced (s : SAPConnectionSettings T) (hashost : isGiven s.ashost = false) :
    Usable s := by
  have hdirect : s.direct = false := by simp [direct, hashost]
  have hbalanced : s.loadBalanced = true := by
    have hone := exactly_one s.addressing
    rw [hdirect] at hone
    simpa using hone
  obtain ⟨kwargs, hkwargs, haddressed⟩ := toPyrfcKwargs_loadBalanced hashost hbalanced
  refine ⟨.loadBalanced, kwargs, hkwargs, hbalanced, haddressed, reports_of_check ?_⟩
  unfold configurationCheck addressing
  rw [if_neg (by simp [hashost])]
  rfl

/-- Accepted settings are usable unless a host comes without a system number, next to a complete
message server. -/
theorem usable_iff (T : PyText) (s : SAPConnectionSettings T) :
    Usable s ↔ (isGiven s.ashost = true → s.sysnr.isSome = true) := by
  constructor
  · intro husable hashost
    obtain ⟨mode, kwargs, hkwargs, _⟩ := husable
    cases hsysnr : s.sysnr with
    | some sysnr => rfl
    | none =>
      rw [toPyrfcKwargs_half hashost hsysnr] at hkwargs
      cases hkwargs
  · intro h
    cases hashost : isGiven s.ashost with
    | false => exact usable_loadBalanced s hashost
    | true =>
      obtain ⟨sysnr, hsysnr⟩ := Option.isSome_iff_exists.mp (h hashost)
      exact usable_direct s hashost hsysnr

theorem isClient_hundred : matchesDigits asciiText 3 "100" = true := by decide

/-- A complete message server next to a host without a system number. -/
def halfDirect : SAPConnectionSettings asciiText where
  ashost := some "sap.example.com"
  mshost := some "msg.example.com"
  msserv := some "sapmsXX"
  group := some "PUBLIC"
  r3name := some "XXX"
  client := "100"
  user := "u"
  passwd := "p"
  sysnr_pattern := by
    intro sysnr h
    cases h
  client_pattern := isClient_hundred
  addressing := rfl

/-- `halfDirect` passes the validation, but its keyword arguments cannot be built. -/
theorem halfDirect_unusable : ¬∀ s : SAPConnectionSettings asciiText, Usable s := by
  intro hall
  obtain ⟨mode, kwargs, hkwargs, _⟩ := hall halfDirect
  have hassert : halfDirect.toPyrfcKwargs = .error (.other "AssertionError" "") := rfl
  rw [hassert] at hkwargs
  cases hkwargs

end Settings

end RfcMcp
