import RfcMcp.Caching.Register
import RfcMcp.Framework.Runs
import RfcMcp.Stateless.Classes

namespace RfcMcp

open Framework Framework.Surroundings Framework.System ExecutionInvoker SourceReader

section Source

variable {cfg : AppSettings} {sap : String → PyDict → Except PyExc PyDict} {lax : Prop}

/-- What can be read of an include does not depend on the others, unless there is trouble; a class
goes on after trouble. -/
theorem conforms_readInclude (hsap : CaseBlind cfg.text sap) (hlax : lax) (className : String)
    (includeName : PyValue) :
    (amongOthers sap cfg (Known cfg sap) lax).Conforms (calm sap) (Alike cfg.text)
      (readInclude cfg (connectionPool cfg) className includeName) := by
  refine conforms_bind ?_ fun read => ?_
  · unfold Conforms
    rw [Action.outcome_tryExcept]
    refine mirrors_recover (E := Alike cfg.text) hlax ?_ fun exc exc' hexc => ?_
    · exact conforms_bind (conforms_invokerCall hsap _ _ _) fun result => conforms_plain (.ok _)
    · cases hexc with
      | refl =>
        refine conforms_ite (fun _ => ?_) fun _ => conforms_plain (.error _)
        exact conforms_bind (conforms_log _) fun _ => conforms_plain (.ok _)
      | spelled hname before after => exact mirrors_raise (.spelled hname before after)
  · cases read with
    | error exc => exact conforms_plain (.ok _)
    | ok result =>
      exact conforms_bind (conforms_plain _) fun source => conforms_plain (.ok _)

theorem conforms_readViaRfc (hsap : CaseBlind cfg.text sap) (objectType : ObjectType)
    (name : String) (hlax : objectType = .class_ → lax) :
    (amongOthers sap cfg (Known cfg sap) lax).Conforms (calm sap) (Alike cfg.text)
      (readViaRfc cfg (connectionPool cfg) objectType name) := by
  cases objectType with
  | program =>
    exact conforms_bind (conforms_invokerCall hsap _ _ _) fun result => conforms_plain _
  | functionModule =>
    exact conforms_bind (conforms_invokerCall hsap _ _ _) fun result => conforms_plain _
  | class_ =>
    refine conforms_bind (conforms_invokerCall hsap _ _ _) fun result => ?_
    refine conforms_bind (conforms_plain _) fun row => ?_
    refine conforms_bind (conforms_plain _) fun rows => ?_
    refine conforms_bind (conforms_plain _) fun names => ?_
    refine conforms_ite (fun _ => conforms_plain _) fun _ => ?_
    refine conforms_bind ?_ fun parts => conforms_plain (.ok _)
    exact conforms_collect alike_refl (conforms_readInclude hsap (hlax rfl) name)

end Source

section Requests

variable {cfg : AppSettings} {sap : String → PyDict → Except PyExc PyDict}

/-- Only a class may be read on after trouble. -/
abbrev reading (cfg : AppSettings) (sap : String → PyDict → Except PyExc PyDict)
    (request : Request) : Surroundings Effects :=
  amongOthers sap cfg (Known cfg sap) (request.readsClass = true)

theorem mirrors_answer {α : Type} {request : Request} {x : Act α} {answer : α → Answer}
    (hx : (reading cfg sap request).Conforms (calm sap) (Alike cfg.text) x) :
    (reading cfg sap request).Mirrors (Alike cfg.text) (AlikeAnswers cfg.text)
      (x >>= fun a => pure (answer a) : Act Answer)
      (Action.outcome (S := Effects) (calm sap) (x >>= fun a => pure (answer a))) := by
  have hanswer : (reading cfg sap request).Conforms (calm sap) (Alike cfg.text)
      (x >>= fun a => pure (answer a) : Act Answer) :=
    conforms_bind hx fun a => conforms_plain (.ok (answer a))
  exact hanswer.mono (fun _ _ h => h) fun a b hab => hab ▸ .refl a

/-- Whatever else is going on, a request that only looks something up comes to what it comes to
alone. -/
theorem mirrors_program (hsap : CaseBlind cfg.text sap) {request : Request}
    (hlooks : request.looksUp = true) (htelling : request.Telling cfg.text) :
    (reading cfg sap request).Mirrors (Alike cfg.text) (AlikeAnswers cfg.text)
      (request.program cfg (connectionPool cfg)) (request.alone cfg sap) := by
  cases request with
  | call f parameters mode => exact mirrors_answer (conforms_invokerCall hsap f parameters mode)
  | callTransactional f parameters mode id =>
    have hmode : mode ≠ "write" := by simpa [Request.looksUp] using hlooks
    have hcall : (reading cfg sap (.callTransactional f parameters mode id)).Conforms (calm sap)
        (Alike cfg.text) (callTransactional cfg (connectionPool cfg) f parameters mode id) := by
      refine conforms_bind (conforms_silent silent_expireTransactions rfl) fun _ => ?_
      refine conforms_ite
        (fun _ => conforms_ite (fun _ => conforms_plain (.error _)) fun _ => ?_)
        fun _ => conforms_ite (fun _ => conforms_plain (.error _)) fun hwrite => ?_
      · exact conforms_bind (conforms_invokerCall hsap f parameters mode) fun value =>
          conforms_plain (.ok _)
      · exact absurd (not_not.mp hwrite) hmode
    exact mirrors_answer hcall
  | search pattern group limit =>
    have hsearch : (reading cfg sap (.search pattern group limit)).Mirrors (Alike cfg.text) Eq
        (FunctionCatalog.search cfg (catalogCall cfg) pattern group limit)
        (searched cfg sap pattern group limit) :=
      (mirrors_search hsap htelling).of_eq alike_refl
    have hfound : searched cfg sap pattern group limit =
        (FunctionCatalog.search cfg (catalogCall cfg) pattern group limit).outcome (calm sap) := by
      unfold FunctionCatalog.search
      rw [outcome_getOrSet]
      rfl
    rw [hfound] at hsearch
    exact mirrors_answer hsearch
  | getInterface f =>
    unfold Request.alone Request.program
    rw [Action.outcome_bind, outcome_getInterface]
    exact mirrors_bind ((mirrors_getInterface hsap f).of_eq alike_refl)
      fun interface interface' hsame => mirrors_pure (.interface hsame)
  | readSource objectType name =>
    refine mirrors_answer (conforms_readViaRfc hsap objectType name fun hclass => ?_)
    rw [hclass]
    rfl
  | commit | rollback | expireTransactions | close | closeAll => cases hlooks

end Requests

section Runs

variable {cfg : AppSettings} {sap : String → PyDict → Except PyExc PyDict} {b c : Run cfg} {t : ℕ}
  {mid : Trace Effects}

/-- Whenever SAP has answered an RFC that only looks something up, it has answered what `sap`
says. -/
def Unchanging (sap : String → PyDict → Except PyExc PyDict) (c : Run cfg) : Prop :=
  ∀ t p f kwargs raw, p.looksUp = true → RfcEnded p f kwargs (.ok raw) (traceOf t c.history) →
    sap f kwargs = .ok raw

theorem Unchanging.before (h : Unchanging sap c) (hlead : Leads b c) : Unchanging sap b := by
  obtain ⟨later, hlater⟩ := history_suffix hlead
  intro t p f kwargs raw hp hended
  obtain ⟨conn, hpart⟩ := hended
  have hsuffix : traceOf t b.history <:+ traceOf t c.history := by
    rw [← hlater, traceOf_append]
    exact List.suffix_append _ _
  exact h t p f kwargs raw hp ⟨conn, hpart.trans hsuffix.isInfix⟩

theorem credible_within (h : Unchanging sap c) (hmid : mid <:+: traceOf t c.history) :
    Credible sap (fun _ _ _ => True) mid :=
  Credible.part sap ⟨h t, fun _ _ _ _ => trivial⟩ hmid

theorem known_of_lookedUp {id : CacheId} {key : String} {found : id.Value}
    (h : LookedUp cfg id key found mid)
    (hcredible : Credible sap (fun _ _ _ => True) mid.reverse) : Known cfg sap id key found := by
  have hfound : ∀ {α : Type} {x : Act α} {r : Except PyExc α} {found : α},
      (amongOthers sap cfg (fun _ _ _ => True) False).Mirrors Eq Eq x r →
        x.Replays mid (.ok found) → r = .ok found := by
    intro α x r found hx hreplays
    exact hx.returned not_false hreplays hcredible
  cases id with
  | search =>
    obtain ⟨pattern, group, limit, hkey, hreplays⟩ := h
    exact ⟨pattern, group, limit, hkey, hfound (conforms_doSearch pattern group limit) hreplays⟩
  | interface =>
    obtain ⟨name, hname, hreplays⟩ := h
    exact ⟨name, hname, hfound (conforms_doGetInterface name) hreplays⟩

/-- If SAP does not change, the caches have only what is found alone. -/
theorem credible_run (h : Reachable c) (hsap : Unchanging sap c) (t : ℕ) :
    Credible sap (Known cfg sap) (traceOf t c.history) := by
  refine ⟨hsap t, fun id key found hmem => ?_⟩
  obtain ⟨later, earlier, hhistory⟩ := List.append_of_mem (mem_traceOf.mp hmem)
  obtain ⟨b, b', hb, hp, hlead, _, _⟩ := h.performed hhistory
  obtain ⟨d, hstored, _⟩ := stored_of_found hb hp
  obtain ⟨u, hlast, after, mid, before, hlooked, htrace⟩ := hstored
  have hd : Leads d c := hlast.leads.trans (.head (.run hp) hlead)
  refine known_of_lookedUp hlooked (credible_within (hsap.before hd) (t := u) ?_)
  exact ⟨after, before, by rw [htrace, List.append_assoc]⟩

theorem class_of_readsClass {request : Request} (h : request.readsClass = true) :
    ∃ name, request = .readSource .class_ name := by
  cases request with
  | readSource objectType name =>
    cases objectType with
    | class_ => exact ⟨name, rfl⟩
    | program | functionModule => cases h
  | _ => cases h

/-- The source of a class that is returned has all its parts. -/
theorem class_of_reply {name : String} {answer : Answer}
    (hblind : CaseBlind cfg.text sap) (h : Reachable c) (hsap : Unchanging sap c)
    (hthread : c.threads[t]? = some (.readSource .class_ name, .ret (.ok answer))) :
    (Request.readSource .class_ name).alone cfg sap = .ok answer ∨
      ∃ source, answer = .source source ∧ PartlyRead cfg sap name source := by
  have hcredible := credible_run h hsap t
  rw [← List.reverse_reverse (traceOf t c.history), ← runOf] at hcredible
  obtain ⟨source, first, rest, hrun, hread, hanswer⟩ := replays_bind (h.replays hthread)
  obtain ⟨rfl, hsource⟩ := replays_pure hanswer
  cases hsource
  rw [hrun, List.append_nil] at hcredible
  rcases source_of_replays hblind hread hcredible with halone | hpartly
  · left
    unfold Request.alone Request.program
    rw [Action.outcome_bind]
    change Except.bind (Action.outcome (calm sap)
      (readClassSource cfg (connectionPool cfg) name)) _ = _
    rw [halone]
    rfl
  · exact .inr ⟨source, rfl, hpartly⟩

/-- As long as SAP does not change, a request that only looks something up is answered as a server
answers it that has nothing else to do and keeps nothing: the other clients, the caches, the pool
and the clock do not matter. Only a disturbance of the request itself may make it raise instead, or
note some includes of a class as unreadable. -/
theorem reads_stateless {request : Request} {reply : Except PyExc Answer}
    (hblind : CaseBlind cfg.text sap) (h : Reachable c) (hsap : Unchanging sap c)
    (hthread : c.threads[t]? = some (request, .ret reply)) (hlooks : request.looksUp = true)
    (htelling : request.Telling cfg.text) :
    Corresponds (Alike cfg.text) (AlikeAnswers cfg.text) reply (request.alone cfg sap) ∨
      Disturbed sap cfg (traceOf t c.history) ∧ ((∃ exc, reply = .error exc) ∨
        ∃ name source, request = .readSource .class_ name ∧ reply = .ok (.source source) ∧
          PartlyRead cfg sap name source) := by
  have hcredible := credible_run h hsap t
  have hfits : observing.Follows
      (fun reply trace => (reading cfg sap request).Fits (Alike cfg.text) (AlikeAnswers cfg.text)
        (request.alone cfg sap) reply trace)
      (request.program cfg (connectionPool cfg)) [] := by
    refine Protocol.Follows.mono (mirrors_program hblind hlooks htelling [] trivial)
      fun reply trace h => ?_
    cases reply with
    | ok answer => exact h
    | error exc => exact h
  rcases h.traced hfits hthread hcredible with hsame | ⟨htrouble, hlax⟩
  · exact .inl hsame
  cases reply with
  | error exc => exact .inr ⟨htrouble, .inl ⟨exc, rfl⟩⟩
  | ok answer =>
    have hclass : request.readsClass = true := hlax.resolve_right fun ⟨_, herror⟩ => nomatch herror
    obtain ⟨name, rfl⟩ := class_of_readsClass hclass
    rcases class_of_reply hblind h hsap hthread with halone | ⟨source, rfl, hpartly⟩
    · rw [halone]
      exact .inl (.ok (.refl answer))
    · exact .inr ⟨htrouble, .inr ⟨name, source, rfl, rfl, hpartly⟩⟩

end Runs

section Sample

/-- SAP answers nothing but an empty dictionary. -/
def answersEmpty : Event Effects Request → Bool
  | .did _ (.rfcEnd _ _ _) (.ok raw) => raw.isEmpty
  | _ => true

theorem unchanging_of_empty {cfg : AppSettings} {c : Run cfg}
    (h : c.history.all answersEmpty = true) : Unchanging (fun _ _ => .ok []) c := by
  intro t p f kwargs raw _ hended
  obtain ⟨conn, hpart⟩ := hended
  have hdid : .did t (Op.rfcEnd conn f kwargs) (.ok raw) ∈ c.history :=
    mem_traceOf.mp (hpart.subset List.mem_cons_self)
  have hempty : raw.isEmpty = true := List.all_eq_true.mp h _ hdid
  rw [List.isEmpty_iff.mp hempty]

/-- A write of one client, and then another client asks for the interface under another
spelling. -/
def writeThenInterface : List (Move (server sampleSettings)) :=
  sampleWrite 0 ++ script 1 (.getInterface "z_write") [.go, .time 3, .go]

theorem reads_stateless_interface : ∃ c interface,
    execute (server sampleSettings).initial writeThenInterface = some c ∧
      c.threads[1]? = some (.getInterface "z_write", .ret (.ok (.interface interface))) ∧
      (Corresponds (Alike asciiText) (AlikeAnswers asciiText) (.ok (.interface interface))
          ((Request.getInterface "z_write").alone sampleSettings fun _ _ => .ok []) ∨
        Disturbed (fun _ _ => .ok []) sampleSettings (traceOf 1 c.history) ∧
          ((∃ exc, (.ok (.interface interface) : Except PyExc Answer) = .error exc) ∨
            ∃ name source, Request.getInterface "z_write" = .readSource .class_ name ∧
              (.ok (.interface interface) : Except PyExc Answer) = .ok (.source source) ∧
                PartlyRead sampleSettings (fun _ _ => .ok []) name source)) := by
  have hrun : ∃ c interface,
      execute (server sampleSettings).initial writeThenInterface = some c ∧
        c.threads[1]? = some (.getInterface "z_write", .ret (.ok (.interface interface))) ∧
        c.history.all answersEmpty = true :=
    ⟨_, _, rfl, rfl, rfl⟩
  obtain ⟨c, interface, hc, hthread, hempty⟩ := hrun
  have hblind : CaseBlind asciiText fun _ _ => .ok [] := ⟨fun _ _ _ => rfl, fun _ _ _ _ _ => rfl⟩
  exact ⟨c, interface, hc, hthread, reads_stateless hblind (execute_reachable hc)
    (unchanging_of_empty hempty) hthread rfl trivial⟩

end Sample

end RfcMcp
