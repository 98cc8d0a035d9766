import RfcMcp.Footprint.Programs
import RfcMcp.Mcp.Server

namespace RfcMcp

open Framework Framework.Protocol

/-- A sweep that read the clock at `now` found these transactions in the table. -/
def Sweep (trace : Trace Effects) (now : Time) (candidates : List Entry) : Prop :=
  [⟨.snapshot, candidates⟩, ⟨.acquire .transactions, ()⟩, ⟨.monotonic, now⟩] <:+: trace

/-- The steps with which a sweep settles what becomes of a candidate: it has been used, it is in
use, or it is looked at again under its lock. -/
inductive Settles (cutoff : Time) (e : Entry) : (o : Op) → o.Res → Prop
  | used {last : Time} (h : cutoff ≤ last) : Settles cutoff e (.readLastUsed e.2) last
  | locked : Settles cutoff e (.tryAcquire (.active e.2.ref)) false
  | decided {removed : Bool} : Settles cutoff e (.removeIfExpired e.1 e.2 cutoff) removed

/-- In the course of the sweep, `e` was settled. -/
def DealtWith (ttl : Time) (trace : Trace Effects) (now : Time) (candidates : List Entry)
    (e : Entry) : Prop :=
  ∃ after o v before, trace = after ++ ⟨o, v⟩ :: before ∧ Sweep before now candidates ∧
    Settles (now - ttl) e o v

/-- The thread has found `e` expired and taken it out of the table. -/
def Expired (trace : Trace Effects) (e : Entry) : Prop :=
  ∃ cutoff, ⟨.removeIfExpired e.1 e.2 cutoff, true⟩ ∈ trace

/-- Only the candidates of a sweep are removed for their age, only what has been removed is rolled
back, and a use is recorded with the clock reading just before it, after an RFC on the connection
that returned normally. -/
def sweepGuard (ttl : Time) (o : Op) (trace : Trace Effects) : Prop :=
  match o with
  | .removeIfExpired id a cutoff => ∃ now candidates, cutoff = now - ttl ∧
      Sweep trace now candidates ∧ (id, a) ∈ candidates
  | .rfcBegin _ (.expire e) _ _ => Expired trace e
  | .setLastUsed a now => ∃ rest f kwargs result, trace = ⟨.monotonic, now⟩ :: rest ∧
      ⟨.rfcEnd a.connection f kwargs, .ok result⟩ ∈ rest
  | .newTransaction _ now => ∃ rest, trace = ⟨.monotonic, now⟩ :: rest
  | _ => True

@[reducible] def sweeping (cfg : AppSettings) : Protocol Effects :=
  tracing (sweepGuard cfg.transactionTtl)

def Op.isSnapshot : Op → Bool
  | .snapshot => true
  | _ => false

/-- Operations that the guard says nothing about. -/
def Op.isFree : Op → Bool
  | .removeIfExpired _ _ _ | .rfcBegin _ (.expire _) _ _ | .setLastUsed _ _
  | .newTransaction _ _ | .snapshot => false
  | _ => true

theorem guard_of_free {o : Op} (ho : o.isFree = true) (ttl : Time) (trace : Trace Effects) :
    sweepGuard ttl o trace := by
  cases o with
  | rfcBegin conn p f kwargs => cases p <;> first | exact trivial | cases ho
  | removeIfExpired id a cutoff => cases ho
  | setLastUsed a now => cases ho
  | newTransaction conn now => cases ho
  | _ => exact trivial

theorem isSnapshot_of_free {o : Op} (ho : o.isFree = true) : o.isSnapshot = false := by
  cases o <;> first | rfl | cases ho

section Traces

variable {ttl now now' : Time} {trace : Trace Effects} {candidates candidates' : List Entry}
  {e : Entry} {o : Op} {v : o.Res}

theorem Sweep.cons (h : Sweep trace now candidates) : Sweep (⟨o, v⟩ :: trace) now candidates :=
  List.infix_cons h

theorem Sweep.of_cons (h : Sweep (⟨o, v⟩ :: trace) now candidates) (ho : o.isSnapshot = false) :
    Sweep trace now candidates := by
  cases List.infix_cons_iff.mp h with
  | inl hprefix =>
    have hhead := (List.cons_prefix_cons.mp hprefix).1
    cases hhead
    cases ho
  | inr hinfix => exact hinfix

theorem DealtWith.cons (h : DealtWith ttl trace now candidates e) :
    DealtWith ttl (⟨o, v⟩ :: trace) now candidates e := by
  obtain ⟨after, o', v', before, rfl, hsweep, hsettles⟩ := h
  exact ⟨⟨o, v⟩ :: after, o', v', before, rfl, hsweep, hsettles⟩

theorem DealtWith.settled (hsweep : Sweep trace now candidates) (h : Settles (now - ttl) e o v) :
    DealtWith ttl (⟨o, v⟩ :: trace) now candidates e :=
  ⟨[], o, v, trace, rfl, hsweep, h⟩

theorem Expired.cons (h : Expired trace e) : Expired (⟨o, v⟩ :: trace) e := by
  obtain ⟨cutoff, hremoved⟩ := h
  exact ⟨cutoff, List.mem_cons_of_mem _ hremoved⟩

/-- All sweeps have dealt with all their candidates. -/
def AllDealt (ttl : Time) (trace : Trace Effects) : Prop :=
  ∀ now candidates, Sweep trace now candidates →
    ∀ e ∈ candidates, DealtWith ttl trace now candidates e

/-- A sweep has dealt with its candidates except for the rest. -/
structure Sweeping (ttl now : Time) (candidates rest : List Entry) (trace : Trace Effects) :
    Prop where
  here : Sweep trace now candidates
  others : ∀ now' candidates', Sweep trace now' candidates' →
    (now' = now ∧ candidates' = candidates) ∨
      ∀ e ∈ candidates', DealtWith ttl trace now' candidates' e
  dealt : ∀ e ∈ candidates, e ∈ rest ∨ DealtWith ttl trace now candidates e
  left : ∀ e ∈ rest, e ∈ candidates

variable {rest : List Entry}

theorem AllDealt.cons (h : AllDealt ttl trace) (ho : o.isSnapshot = false) :
    AllDealt ttl (⟨o, v⟩ :: trace) := by
  intro now candidates hsweep e he
  exact (h now candidates (hsweep.of_cons ho) e he).cons

theorem Sweeping.cons (h : Sweeping ttl now candidates rest trace) (ho : o.isSnapshot = false) :
    Sweeping ttl now candidates rest (⟨o, v⟩ :: trace) := by
  refine ⟨h.here.cons, fun now' candidates' hsweep => ?_, fun e he => ?_, h.left⟩
  · exact (h.others now' candidates' (hsweep.of_cons ho)).imp_right fun hall e he =>
      (hall e he).cons
  · exact (h.dealt e he).imp_right DealtWith.cons

theorem Sweeping.begin (h : AllDealt ttl trace) : Sweeping ttl now candidates candidates
    (⟨.snapshot, candidates⟩ :: ⟨.acquire .transactions, ()⟩ :: ⟨.monotonic, now⟩ :: trace) := by
  have hpast : AllDealt ttl (⟨.acquire .transactions, ()⟩ :: ⟨.monotonic, now⟩ :: trace) :=
    (h.cons (o := .monotonic) rfl).cons (o := .acquire .transactions) rfl
  refine ⟨?_, fun now' candidates' hsweep => ?_, fun e he => .inl he, fun e he => he⟩
  · exact ⟨[], trace, rfl⟩
  · cases List.infix_cons_iff.mp hsweep with
    | inl hprefix =>
      obtain ⟨hsnapshot, htail⟩ := List.cons_prefix_cons.mp hprefix
      obtain ⟨_, htail⟩ := List.cons_prefix_cons.mp htail
      obtain ⟨hclock, _⟩ := List.cons_prefix_cons.mp htail
      cases hsnapshot
      cases hclock
      exact .inl ⟨rfl, rfl⟩
    | inr hinfix => exact .inr fun e he => (hpast now' candidates' hinfix e he).cons

/-- The next candidate is settled. -/
theorem Sweeping.next (h : Sweeping ttl now candidates (e :: rest) trace)
    (hdealt : DealtWith ttl trace now candidates e) : Sweeping ttl now candidates rest trace := by
  refine ⟨h.here, h.others, fun e' he' => ?_, fun e' he' => h.left e' (List.mem_cons_of_mem e he')⟩
  cases h.dealt e' he' with
  | inl hrest =>
    cases List.mem_cons.mp hrest with
    | inl heq => rw [heq]; exact .inr hdealt
    | inr hrest => exact .inl hrest
  | inr hdone => exact .inr hdone

theorem Sweeping.all (h : Sweeping ttl now candidates [] trace) : AllDealt ttl trace := by
  intro now' candidates' hsweep e he
  cases h.others now' candidates' hsweep with
  | inl hsame =>
    obtain ⟨rfl, rfl⟩ := hsame
    exact (h.dealt e he).resolve_left List.not_mem_nil
  | inr hall => exact hall e he

end Traces

end RfcMcp
