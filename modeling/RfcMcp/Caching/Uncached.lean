import RfcMcp.Footprint.Programs

namespace RfcMcp

open Framework

section Keys

theorem natRepr_injective {m n : Nat} (h : m.repr = n.repr) : m = n := by
  have hdigits : Nat.toDigits 10 m = Nat.toDigits 10 n := by
    have hlist := congrArg String.toList h
    rwa [Nat.toList_repr, Nat.toList_repr] at hlist
  have hread := congrArg (fun digits => Nat.ofDigitChars 10 digits 0) hdigits
  simpa using hread

theorem isDigit_of_mem_repr {n : Nat} {c : Char} (hc : c ∈ n.repr.toList) : c.isDigit = true := by
  rw [Nat.toList_repr] at hc
  exact Nat.isDigit_of_mem_toDigits (by decide) (by decide) hc

theorem repr_ne_minus (m n : Nat) : m.repr ≠ "-" ++ n.repr := by
  intro h
  have hminus : '-' ∈ m.repr.toList := by
    rw [h, String.toList_append]
    exact List.mem_append_left _ (by decide)
  exact absurd (isDigit_of_mem_repr hminus) (by decide)

theorem intText_injective {l l' : Int} (h : toString l = toString l') : l = l' := by
  cases l with
  | ofNat m =>
    cases l' with
    | ofNat n => exact congrArg Int.ofNat (natRepr_injective h)
    | negSucc n => exact absurd h (repr_ne_minus m (n + 1))
  | negSucc m =>
    cases l' with
    | ofNat n => exact absurd h.symm (repr_ne_minus n (m + 1))
    | negSucc n =>
      have hlist := congrArg String.toList (show "-" ++ (m + 1).repr = "-" ++ (n + 1).repr from h)
      rw [String.toList_append, String.toList_append] at hlist
      have hsucc := natRepr_injective (String.toList_injective (List.append_cancel_left hlist))
      exact congrArg Int.negSucc (Nat.succ.inj hsucc)

/-- The text of a number has no separator. -/
theorem bar_notMem_intText (l : Int) : '|' ∉ (toString l).toList := by
  have hdigits : ∀ n : Nat, '|' ∉ n.repr.toList := fun n hmem =>
    absurd (isDigit_of_mem_repr hmem) (by decide)
  cases l with
  | ofNat n => exact hdigits n
  | negSucc n =>
    show '|' ∉ ("-" ++ (n + 1).repr).toList
    rw [String.toList_append, List.mem_append]
    exact not_or.mpr ⟨by decide, hdigits (n + 1)⟩

theorem split_last {α : Type} {x : α} {a b a' b' : List α} (hb : x ∉ b) (hb' : x ∉ b')
    (h : a ++ x :: b = a' ++ x :: b') : a = a' ∧ b = b' := by
  cases List.append_eq_append_iff.mp h with
  | inl hlonger =>
    obtain ⟨rest, rfl, htail⟩ := hlonger
    cases rest with
    | nil => exact ⟨(List.append_nil a).symm, (List.cons.inj htail).2⟩
    | cons y rest =>
      have hmem : x ∈ b := by
        rw [(List.cons.inj htail).2]
        simp
      exact absurd hmem hb
  | inr hlonger =>
    obtain ⟨rest, rfl, htail⟩ := hlonger
    cases rest with
    | nil => exact ⟨List.append_nil a', (List.cons.inj htail).2.symm⟩
    | cons y rest =>
      have hmem : x ∈ b' := by
        rw [(List.cons.inj htail).2]
        simp
      exact absurd hmem hb'

/-- A key tells the limit of a search, but not where its pattern ends. -/
theorem searchKey_eq_iff (T : PyText) {p p' : String} {g g' : Option String} {l l' : Int} :
    FunctionCatalog.searchKey T p g l = FunctionCatalog.searchKey T p' g' l' ↔
      T.upper p ++ "|" ++ T.upper (g.getD "") = T.upper p' ++ "|" ++ T.upper (g'.getD "") ∧
        l = l' := by
  constructor
  · intro h
    have hkey : ∀ (query : String) (l : Int),
        (query ++ "|" ++ toString l).toList = query.toList ++ '|' :: (toString l).toList := by
      intro query l
      rw [String.toList_append, String.toList_append, List.append_assoc]
      rfl
    have hlist := congrArg String.toList h
    unfold FunctionCatalog.searchKey at hlist
    rw [hkey, hkey] at hlist
    obtain ⟨hquery, hlimit⟩ := split_last (bar_notMem_intText l) (bar_notMem_intText l') hlist
    exact ⟨String.toList_injective hquery, intText_injective (String.toList_injective hlimit)⟩
  · intro h
    obtain ⟨hquery, rfl⟩ := h
    unfold FunctionCatalog.searchKey
    rw [hquery]

end Keys

section Backend

variable (cfg : AppSettings) (backend : String → PyDict → Except PyExc PyDict)

def upperValue (T : PyText) : PyValue → PyValue
  | .str s => .str (T.upper s)
  | v => v

def upperArguments (T : PyText) (kwargs : PyDict) : PyDict :=
  kwargs.map fun (key, v) => (key, upperValue T v)

/-- The answers depend only on the upper-cased argument values. -/
def UpperOnly (T : PyText) (backend : String → PyDict → Except PyExc PyDict) : Prop :=
  ∀ function kwargs kwargs', upperArguments T kwargs = upperArguments T kwargs' →
    backend function kwargs = backend function kwargs'

/-- A caller in front of a backend whose answers do not change. -/
def constantCaller (function : String) (kwargs : PyDict) : Act PyDict :=
  Action.ofExcept (backend function kwargs)

/-- What performs no operation has its result at once. -/
theorem ofExcept_of_within {α : Type} {x : Act α} (hx : Within [] x) :
    ∃ r, x = Action.ofExcept r := by
  obtain ⟨harea⟩ := hx
  cases x with
  | ret r => exact ⟨r, rfl⟩
  | call o next => exact absurd harea.1 List.not_mem_nil

variable {p p' : String} {g g' : Option String}

theorem doSearch_result (p : String) (g : Option String) (l : Int) :
    ∃ r, FunctionCatalog.doSearch cfg (constantCaller backend) p g l = Action.ofExcept r :=
  ofExcept_of_within (within_bind (within_ofExcept _) fun _ => within_ofExcept _)

theorem doGetInterface_found (name : String) : ∃ found,
    FunctionCatalog.doGetInterface cfg (constantCaller backend) name = Action.ofExcept found :=
  ofExcept_of_within (within_doGetInterface cfg (fun _ _ => within_ofExcept _) name)

variable {backend}

/-- Searches with the same upper-cased arguments find the same. -/
theorem doSearch_congr (h : UpperOnly cfg.text backend)
    (hsame : upperArguments cfg.text (FunctionCatalog.searchKwargs p g) =
      upperArguments cfg.text (FunctionCatalog.searchKwargs p' g')) (l : Int) :
    FunctionCatalog.doSearch cfg (constantCaller backend) p g l =
      FunctionCatalog.doSearch cfg (constantCaller backend) p' g' l := by
  unfold FunctionCatalog.doSearch constantCaller
  rw [h _ _ _ hsame]

/-- An interface but for the name that it is returned under. -/
def named (name : String) (details : List ParameterInfo × List ExceptionInfo) : FunctionInterface :=
  { name := name, parameters := details.1, exceptions := details.2 }

/-- The outcome is the same for all these names, but for the name of the interface. -/
def SameDetails (names : String → Prop) (x : String → Act FunctionInterface) : Prop :=
  ∃ r : Except PyExc (List ParameterInfo × List ExceptionInfo), ∀ name, names name →
    x name = Action.ofExcept (r.map (named name))

theorem sameDetails_bind {α : Type} {names : String → Prop} {x : Act α}
    {f : String → α → Act FunctionInterface} (hx : Within [] x)
    (hf : ∀ a, SameDetails names fun name => f name a) :
    SameDetails names fun name => x >>= f name := by
  obtain ⟨r, rfl⟩ := ofExcept_of_within hx
  cases r with
  | ok a => exact hf a
  | error exc => exact ⟨.error exc, fun _ _ => rfl⟩

/-- Lookups of names that differ in letter case find the same under these names. -/
theorem doGetInterface_result (h : UpperOnly cfg.text backend) (name : String) :
    SameDetails (fun name' => cfg.text.upper name' = cfg.text.upper name)
      (FunctionCatalog.doGetInterface cfg (constantCaller backend)) := by
  have hcall : ∀ f params, Within [] (constantCaller backend f params) :=
    fun _ _ => within_ofExcept _
  have hrest : ∀ result : PyDict,
      SameDetails (fun name' => cfg.text.upper name' = cfg.text.upper name) fun name' => (do
        let params ← Action.ofExcept (result.getD "PARAMS" (.list [])).iterate
        let parameters ← Action.collect params
          (FunctionCatalog.interfaceParameter cfg (constantCaller backend))
        let rows ← Action.ofExcept (result.getD "EXCEPTIONS" (.list [])).iterate
        let exceptions ← Action.ofExcept (FunctionCatalog.interfaceExceptions cfg.text rows)
        pure (named name' (parameters, exceptions)) : Act FunctionInterface) := by
    intro result
    refine sameDetails_bind (within_ofExcept _) fun params => ?_
    refine sameDetails_bind (within_collect (within_interfaceParameter cfg hcall))
      fun parameters => ?_
    refine sameDetails_bind (within_ofExcept _) fun rows => ?_
    refine sameDetails_bind (within_ofExcept _) fun exceptions => ?_
    exact ⟨.ok (parameters, exceptions), fun _ _ => rfl⟩
  obtain ⟨r, hr⟩ :=
    sameDetails_bind (hcall "RFC_GET_FUNCTION_INTERFACE" [("FUNCNAME", .str name)]) hrest
  refine ⟨r, fun name' hname => ?_⟩
  rw [← hr name' hname]
  have hanswer : constantCaller backend "RFC_GET_FUNCTION_INTERFACE" [("FUNCNAME", .str name')] =
      constantCaller backend "RFC_GET_FUNCTION_INTERFACE" [("FUNCNAME", .str name)] := by
    refine congrArg Action.ofExcept (h _ _ _ ?_)
    simp only [upperArguments, upperValue, List.map_cons, List.map_nil, hname]
  unfold FunctionCatalog.doGetInterface
  rw [hanswer]
  rfl

end Backend

end RfcMcp
