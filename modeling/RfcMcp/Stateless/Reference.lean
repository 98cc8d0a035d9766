import RfcMcp.Caching.Lookups
import RfcMcp.Caching.Uncached
import RfcMcp.Errors.Causes
import RfcMcp.Framework.Mirror
import RfcMcp.Replies.Attempts

namespace RfcMcp

open Framework

section Reference

variable (cfg : AppSettings) (sap : String → PyDict → Except PyExc PyDict)

/-- What the operations come to on a server that has nothing else to do and keeps nothing: a
connection is at hand, nothing is cached, and SAP answers what `sap` says. -/
def calm : (o : Op) → o.Res
  | .tryAcquire _ => true
  | .semAcquire => true
  | .scanIdle => some (0 : Nat)
  | .swapIdle => []
  | .openConnection => .ok (0 : Nat)
  | .demoConnection => (0 : Nat)
  | .rfcEnd _ function kwargs => sap function kwargs
  | .newTransaction _ _ => (0 : Nat)
  | .tokenUrlsafe => ""
  | .lookup _ => none
  | .isCurrent _ _ => false
  | .removeIfCurrent _ _ => false
  | .removeIfExpired _ _ _ => false
  | .snapshot => []
  | .drain => []
  | .readLastUsed _ => (0 : Int)
  | .monotonic => (0 : Int)
  | .cacheGet _ _ => none
  | .acquire _ => ()
  | .release _ => ()
  | .semRelease => ()
  | .appendIdle _ => ()
  | .sleep _ => ()
  | .closeConnection _ => ()
  | .rfcBegin _ _ _ _ => ()
  | .poolRelease _ _ _ => ()
  | .register _ _ => ()
  | .setLastUsed _ _ => ()
  | .cacheSet _ _ _ => ()
  | .log _ => ()

/-- The reply to a request that has such a server for itself. -/
def Request.alone (request : Request) : Except PyExc Answer :=
  Action.outcome (calm sap) (request.program cfg (connectionPool cfg))

/-- What a search finds there. -/
def searched (pattern : String) (group : Option String) (limit : Int) :
    Except PyExc (List FunctionSummary) :=
  (FunctionCatalog.doSearch cfg (catalogCall cfg) pattern group limit).outcome (calm sap)

/-- The interface of a function there. -/
def described (functionName : String) : Except PyExc FunctionInterface :=
  (FunctionCatalog.doGetInterface cfg (catalogCall cfg) functionName).outcome (calm sap)

/-- What may be in the caches, if SAP always answers what `sap` says. -/
def Known : (id : CacheId) → String → id.Value → Prop
  | .search, key, found => ∃ pattern group limit,
    FunctionCatalog.searchKey cfg.text pattern group limit = key ∧
    searched cfg sap pattern group limit = .ok found
  | .interface, key, found => ∃ name, cfg.text.upper name = key ∧ described cfg sap name = .ok found

end Reference

section Surroundings

variable (sap : String → PyDict → Except PyExc PyDict)

/-- The RFCs that only look something up. -/
def Purpose.looksUp : Purpose → Bool
  | .read | .discovery => true
  | _ => false

/-- SAP has answered what `sap` says, and the caches had only what is `known`. -/
structure Credible (known : (id : CacheId) → String → id.Value → Prop) (trace : Trace Effects) :
    Prop where
  answered : ∀ p f kwargs raw, p.looksUp = true → RfcEnded p f kwargs (.ok raw) trace →
    sap f kwargs = .ok raw
  cached : ∀ (id : CacheId) (key : String) (found : id.Value),
    ⟨Op.cacheGet id key, some found⟩ ∈ trace → known id key found

/-- The pool has raised instead of lending a connection, or an RFC has failed that would not have
failed else. -/
inductive Disturbed (cfg : AppSettings) (trace : Trace Effects) : Prop
  | unlent {mid : Trace Effects} {exc : PyExc}
      (h : Program.Replays (ConnectionPool.checkout cfg) mid (.error exc))
      (hpart : mid.reverse <:+: trace)
  | failed {p : Purpose} {f : String} {kwargs : PyDict} {cause : PyExc} (hp : p.looksUp = true)
      (h : RfcEnded p f kwargs (.error cause) trace) (hcause : sap f kwargs ≠ .error cause)

theorem disturbed_enduring (cfg : AppSettings) : Enduring (Disturbed sap cfg) := by
  intro did trace h
  cases h with
  | unlent h hpart => exact .unlent h (hpart.trans (List.suffix_cons did trace).isInfix)
  | failed hp h hcause => exact .failed hp (rfcEnded_enduring _ _ _ _ did trace h) hcause

theorem Credible.part {known : (id : CacheId) → String → id.Value → Prop}
    {trace part : Trace Effects} (h : Credible sap known trace) (hpart : part <:+: trace) :
    Credible sap known part := by
  refine ⟨fun p f kwargs raw hp hended => ?_, fun id key found hmem => ?_⟩
  · obtain ⟨conn, hrfc⟩ := hended
    exact h.answered p f kwargs raw hp ⟨conn, hrfc.trans hpart⟩
  · exact h.cached id key found (hpart.subset hmem)

/-- A thread among others. -/
def amongOthers (cfg : AppSettings) (known : (id : CacheId) → String → id.Value → Prop)
    (lax : Prop) : Surroundings Effects where
  honest := Credible sap known
  honest_tail did trace h := h.part sap (List.suffix_cons did trace).isInfix
  troubled := Disturbed sap cfg
  troubled_enduring := disturbed_enduring sap cfg
  lax := lax

end Surroundings

section Spelling

variable (T : PyText)

/-- SAP looks functions up without regard to letter case. -/
structure CaseBlind (sap : String → PyDict → Except PyExc PyDict) : Prop where
  interface : ∀ name name', T.upper name = T.upper name' →
    sap "RFC_GET_FUNCTION_INTERFACE" [("FUNCNAME", .str name)] =
      sap "RFC_GET_FUNCTION_INTERFACE" [("FUNCNAME", .str name')]
  search : ∀ pattern group pattern' group',
    upperArguments T (FunctionCatalog.searchKwargs pattern group) =
      upperArguments T (FunctionCatalog.searchKwargs pattern' group') →
    sap "RFC_FUNCTION_SEARCH" (FunctionCatalog.searchKwargs pattern group) =
      sap "RFC_FUNCTION_SEARCH" (FunctionCatalog.searchKwargs pattern' group')

/-- The cache key of a search says what SAP is to be asked. -/
def Request.Telling : Request → Prop
  | .search pattern group _ => ∀ pattern' group',
    T.upper pattern ++ "|" ++ T.upper (group.getD "") =
      T.upper pattern' ++ "|" ++ T.upper (group'.getD "") →
    upperArguments T (FunctionCatalog.searchKwargs pattern group) =
      upperArguments T (FunctionCatalog.searchKwargs pattern' group')
  | _ => True

/-- The same error, but for the spelling of a function's name. -/
inductive Alike : PyExc → PyExc → Prop
  | refl (exc : PyExc) : Alike exc exc
  | spelled {name name' : String} (h : T.upper name = T.upper name') (before after : String) :
      Alike (.parameterValidation (before ++ name ++ after))
        (.parameterValidation (before ++ name' ++ after))

/-- The same interface, but for the spelling of its name. -/
structure SameInterface (interface interface' : FunctionInterface) : Prop where
  name : T.upper interface.name = T.upper interface'.name
  details : { interface with name := interface'.name } = interface'

/-- The same answer, but for the spelling of a function's name. -/
inductive AlikeAnswers : Answer → Answer → Prop
  | refl (answer : Answer) : AlikeAnswers answer answer
  | interface {interface interface' : FunctionInterface}
      (h : SameInterface T interface interface') :
      AlikeAnswers (.interface interface) (.interface interface')

/-- Requests that at most look something up. -/
def Request.looksUp : Request → Bool
  | .call _ _ _ | .search _ _ _ | .getInterface _ | .readSource _ _ => true
  | .callTransactional _ _ mode _ => mode ≠ "write"
  | _ => false

end Spelling

end RfcMcp
