import RfcMcp.Framework.Trace
import RfcMcp.Runtime.Effects

namespace RfcMcp

open Framework Framework.Program

/-- What an operation is about. -/
inductive Area
  | lock
  | borrow
  | giveBack
  | closeAll
  | rfc
  | expiry
  | create
  | find
  | remove
  | use
  | clock
  | cache
  | log
deriving DecidableEq

def Op.area : Op → Area
  | .acquire _ | .release _ => .lock
  | .semAcquire | .scanIdle | .openConnection | .sleep _ | .demoConnection => .borrow
  | .poolRelease _ _ _ | .appendIdle _ | .closeConnection _ | .semRelease => .giveBack
  | .swapIdle => .closeAll
  | .rfcBegin _ (.expire _) _ _ | .snapshot | .readLastUsed _ | .tryAcquire _
  | .removeIfExpired _ _ _ => .expiry
  | .rfcBegin _ _ _ _ | .rfcEnd _ _ _ => .rfc
  | .newTransaction _ _ | .tokenUrlsafe | .register _ _ => .create
  | .lookup _ | .isCurrent _ _ => .find
  | .removeIfCurrent _ _ | .drain => .remove
  | .setLastUsed _ _ => .use
  | .monotonic => .clock
  | .cacheGet _ _ | .cacheSet _ _ _ => .cache
  | .log _ => .log

/-- All that `x` ever does is in these areas. -/
structure Within (areas : List Area) {α : Type} (x : Act α) : Prop where
  area : Only (S := Effects) (fun o : Op => o.area ∈ areas) x

variable {α β : Type} {areas areas' : List Area}

theorem Within.only {x : Act α} (hx : Within areas x) {good : Op → Prop}
    (h : ∀ o : Op, o.area ∈ areas → good o) : Only (S := Effects) good x :=
  only_mono hx.area h

/-- The frame rule: what every operation of these areas keeps, `x` keeps. -/
theorem Within.keeps {P : Protocol Effects} {I : P.Local → Prop} {x : Act α} (hx : Within areas x)
    (h : ∀ o : Op, o.area ∈ areas → P.Keeps I (perform o)) : P.Keeps I x :=
  ⟨fun _ hg => hx.area.meets (fun o g ho hg => (h o ho).meets g hg) hg⟩

/-- A list of areas is checked against another by evaluation. -/
def covers (areas' areas : List Area) : Bool := areas.all areas'.contains

theorem mem_of_covers (h : covers areas' areas = true) {a : Area} (ha : a ∈ areas) : a ∈ areas' :=
  List.contains_iff_mem.mp (List.all_eq_true.mp h a ha)

theorem Within.mono {x : Act α} (hx : Within areas x) (h : covers areas' areas = true) :
    Within areas' x :=
  ⟨hx.only fun _ ho => mem_of_covers h ho⟩

theorem within_pure (a : α) : Within areas (pure a : Act α) := ⟨only_pure a⟩

theorem within_raise (exc : PyExc) : Within areas (Action.raise exc : Act α) := ⟨only_raise exc⟩

theorem within_ofExcept (r : Except PyExc α) : Within areas (Action.ofExcept r) :=
  ⟨only_ofExcept r⟩

theorem within_op {o : Op} (ho : areas.contains o.area = true) :
    Within areas (perform o) :=
  ⟨only_perform (List.contains_iff_mem.mp ho)⟩

theorem within_log {record : LogRecord} (h : areas.contains Area.log = true) :
    Within areas (log record) :=
  within_op (o := .log record) h

theorem within_bind {x : Act α} {f : α → Act β} (hx : Within areas x)
    (hf : ∀ a, Within areas (f a)) : Within areas (x >>= f) :=
  ⟨only_bind hx.area fun a => (hf a).area⟩

theorem within_tryExcept {x : Act α} {handler : PyExc → Act α} (hx : Within areas x)
    (hhandler : ∀ exc, Within areas (handler exc)) : Within areas (x.tryExcept handler) :=
  ⟨only_tryExcept hx.area fun exc => (hhandler exc).area⟩

theorem within_tryFinally {x : Act α} {last : Act Unit} (hx : Within areas x)
    (hlast : Within areas last) : Within areas (x.tryFinally last) :=
  ⟨only_tryFinally hx.area hlast.area⟩

theorem within_forEach {items : List α} {body : α → Act Unit}
    (hbody : ∀ a, Within areas (body a)) : Within areas (Action.forEach items body) :=
  ⟨only_forEach fun a => (hbody a).area⟩

theorem within_collect {items : List α} {body : α → Act (List β)}
    (hbody : ∀ a, Within areas (body a)) : Within areas (Action.collect items body) :=
  ⟨only_collect fun a => (hbody a).area⟩

theorem within_withLock {l : LockId} {x : Act α} (hl : areas.contains Area.lock = true)
    (hx : Within areas x) : Within areas (withLock l x) :=
  within_bind (within_op (o := .acquire l) hl) fun _ =>
    within_tryFinally hx (within_op (o := .release l) hl)

theorem within_ite {p : Prop} [Decidable p] {x y : Act α} (hx : Within areas x)
    (hy : Within areas y) : Within areas (if p then x else y) := by
  split
  · exact hx
  · exact hy

end RfcMcp
