import RfcMcp.Execution.ResultTransform
import Mathlib.Data.List.Forall2
import Mathlib.Algebra.Ring.Nat

namespace RfcMcp

namespace PyValue

def Scalar : PyValue → Prop
  | .list _ => False
  | .dict _ => False
  | _ => True

theorem sizeOf_snd_lt {items : List (String × PyValue)} {e : String × PyValue} (h : e ∈ items) :
    sizeOf e.2 < sizeOf (PyValue.dict items) := by
  have hitem := List.sizeOf_lt_of_mem h
  have hsnd : sizeOf e.2 < sizeOf e := by
    cases e
    simp only [Prod.mk.sizeOf_spec]
    omega
  simp only [dict.sizeOf_spec]
  omega

/-- A value is a scalar, or built from smaller values by a list or a dict. -/
@[elab_as_elim]
theorem induct {motive : PyValue → Prop} (scalar : ∀ v, v.Scalar → motive v)
    (list : ∀ xs, (∀ v ∈ xs, motive v) → motive (.list xs))
    (dict : ∀ items, (∀ e ∈ items, motive e.2) → motive (.dict items)) (v : PyValue) :
    motive v := by
  match v with
  | .list xs => exact list xs fun v _ => induct scalar list dict v
  | .dict items => exact dict items fun e he => induct scalar list dict e.2
  | .none => exact scalar _ trivial
  | .bool b => exact scalar _ trivial
  | .int n => exact scalar _ trivial
  | .float x => exact scalar _ trivial
  | .str s => exact scalar _ trivial
  | .decimal t => exact scalar _ trivial
  | .date t => exact scalar _ trivial
  | .time t => exact scalar _ trivial
  | .datetime t => exact scalar _ trivial
  | .bytes bs => exact scalar _ trivial
  | .object name => exact scalar _ trivial
termination_by sizeOf v
decreasing_by
  · decreasing_tactic
  · exact sizeOf_snd_lt he

mutual

/-- A value and everything inside it. -/
def nodes : PyValue → List PyValue
  | .list xs => .list xs :: listNodes xs
  | .dict items => .dict items :: itemNodes items
  | v => [v]

def listNodes : List PyValue → List PyValue
  | [] => []
  | v :: rest => v.nodes ++ listNodes rest

def itemNodes : List (String × PyValue) → List PyValue
  | [] => []
  | (_, v) :: rest => v.nodes ++ itemNodes rest

end

/-- What a value adds to the row count by itself. -/
def rows : PyValue → ℕ
  | .list xs => xs.length
  | _ => 0

/-- The elements of all lists at every depth. -/
def totalRows (v : PyValue) : ℕ := (v.nodes.map rows).sum

def FiniteFloats (v : PyValue) : Prop := ∀ x, .float x ∈ v.nodes → ∃ repr, x = .finite repr

/-- Built from the types that the result conversion is about. -/
def Plain (v : PyValue) : Prop := ∀ name, .object name ∉ v.nodes

mutual

/-- The JSON value that stands for a value. -/
def safe : PyValue → PyValue
  | .dict items => .dict (safeItems items)
  | .list xs => .list (safeList xs)
  | .datetime t => .str t
  | .date t => .str t
  | .time t => .str t
  | .decimal t => .str t
  | .bytes bs => .str (decodeUtf8Replace bs)
  | v => v

def safeList : List PyValue → List PyValue
  | [] => []
  | v :: rest => v.safe :: safeList rest

def safeItems : List (String × PyValue) → List (String × PyValue)
  | [] => []
  | (k, v) :: rest => (k, v.safe) :: safeItems rest

end

/-- The same keys, the same lengths and order, and only JSON values on the right. -/
inductive Converted : PyValue → PyValue → Prop
  | none : Converted .none .none
  | bool (b : Bool) : Converted (.bool b) (.bool b)
  | int (n : Int) : Converted (.int n) (.int n)
  | float (x : PyFloat) : Converted (.float x) (.float x)
  | str (s : String) : Converted (.str s) (.str s)
  | decimal (t : String) : Converted (.decimal t) (.str t)
  | date (t : String) : Converted (.date t) (.str t)
  | time (t : String) : Converted (.time t) (.str t)
  | datetime (t : String) : Converted (.datetime t) (.str t)
  | bytes (bs : List UInt8) : Converted (.bytes bs) (.str (decodeUtf8Replace bs))
  | list {xs ys : List PyValue} (h : List.Forall₂ Converted xs ys) :
    Converted (.list xs) (.list ys)
  | dict {items items' : List (String × PyValue)} (hkeys : items.map (·.1) = items'.map (·.1))
    (h : List.Forall₂ Converted (items.map (·.2)) (items'.map (·.2))) :
    Converted (.dict items) (.dict items')

section Nodes

theorem listNodes_eq (xs : List PyValue) : listNodes xs = xs.flatMap nodes := by
  induction xs with
  | nil => rw [listNodes, List.flatMap_nil]
  | cons v xs ih => rw [listNodes, ih, List.flatMap_cons]

theorem itemNodes_eq (items : List (String × PyValue)) :
    itemNodes items = items.flatMap fun e => e.2.nodes := by
  induction items with
  | nil => rw [itemNodes, List.flatMap_nil]
  | cons e items ih => rw [itemNodes, ih, List.flatMap_cons]

@[simp] theorem nodes_list (xs : List PyValue) :
    nodes (.list xs) = .list xs :: xs.flatMap nodes := by
  rw [nodes, listNodes_eq]

@[simp] theorem nodes_dict (items : List (String × PyValue)) :
    nodes (.dict items) = .dict items :: items.flatMap fun e => e.2.nodes := by
  rw [nodes, itemNodes_eq]

theorem nodes_scalar {v : PyValue} (h : v.Scalar) : v.nodes = [v] := by
  cases v with
  | list xs => cases h
  | dict items => cases h
  | _ => rw [nodes] <;> simp

theorem safeList_eq (xs : List PyValue) : safeList xs = xs.map safe := by
  induction xs with
  | nil => rw [safeList, List.map_nil]
  | cons v xs ih => rw [safeList, ih, List.map_cons]

theorem safeItems_eq (items : List (String × PyValue)) :
    safeItems items = items.map fun e => (e.1, e.2.safe) := by
  induction items with
  | nil => rw [safeItems, List.map_nil]
  | cons e items ih => rw [safeItems, ih, List.map_cons]

@[simp] theorem safe_list (xs : List PyValue) : safe (.list xs) = .list (xs.map safe) := by
  rw [safe, safeList_eq]

@[simp] theorem safe_dict (items : List (String × PyValue)) :
    safe (.dict items) = .dict (items.map fun e => (e.1, e.2.safe)) := by
  rw [safe, safeItems_eq]

theorem safe_scalar {v : PyValue} (h : v.Scalar) : v.safe.Scalar := by
  cases v with
  | list xs => cases h
  | dict items => cases h
  | _ => simp [safe, Scalar]

@[simp] theorem totalRows_list (xs : List PyValue) :
    totalRows (.list xs) = xs.length + (xs.map totalRows).sum := by
  have hrows : ((xs.flatMap nodes).map rows).sum = (xs.map totalRows).sum := by
    induction xs with
    | nil => rfl
    | cons v xs ih =>
      rw [List.flatMap_cons, List.map_append, List.sum_append, ih, List.map_cons, List.sum_cons,
        totalRows]
  rw [totalRows, nodes_list, List.map_cons, List.sum_cons, hrows, rows]

@[simp] theorem totalRows_dict (items : List (String × PyValue)) :
    totalRows (.dict items) = (items.map fun e => e.2.totalRows).sum := by
  have hrows : ((items.flatMap fun e => e.2.nodes).map rows).sum =
      (items.map fun e => e.2.totalRows).sum := by
    induction items with
    | nil => rfl
    | cons e items ih =>
      rw [List.flatMap_cons, List.map_append, List.sum_append, ih, List.map_cons, List.sum_cons,
        totalRows]
  rw [totalRows, nodes_dict, List.map_cons, List.sum_cons, hrows]
  exact Nat.zero_add _

theorem totalRows_scalar {v : PyValue} (h : v.Scalar) : v.totalRows = 0 := by
  rw [totalRows, nodes_scalar h]
  cases v with
  | list xs => cases h
  | _ => rfl

end Nodes

section Safe

theorem safe_safe (v : PyValue) : v.safe.safe = v.safe := by
  induction v using induct with
  | scalar v h =>
    cases v with
    | list xs => cases h
    | dict items => cases h
    | _ => simp [safe]
  | list xs ih =>
    rw [safe_list, safe_list, List.map_map]
    exact congrArg _ (List.map_congr_left ih)
  | dict items ih =>
    rw [safe_dict, safe_dict, List.map_map]
    refine congrArg _ (List.map_congr_left ?_)
    intro e he
    simp [ih e he]

theorem totalRows_safe (v : PyValue) : v.safe.totalRows = v.totalRows := by
  induction v using induct with
  | scalar v h => rw [totalRows_scalar h, totalRows_scalar (safe_scalar h)]
  | list xs ih =>
    rw [safe_list, totalRows_list, totalRows_list, List.map_map, List.length_map]
    rw [show xs.map (totalRows ∘ safe) = xs.map totalRows from List.map_congr_left ih]
  | dict items ih =>
    rw [safe_dict, totalRows_dict, totalRows_dict, List.map_map]
    exact congrArg List.sum (List.map_congr_left ih)

theorem Plain.of_list {xs : List PyValue} (h : Plain (.list xs)) : ∀ v ∈ xs, v.Plain := by
  intro v hv name hname
  refine h name ?_
  rw [nodes_list]
  exact List.mem_cons_of_mem _ (List.mem_flatMap.mpr ⟨v, hv, hname⟩)

theorem Plain.of_dict {items : List (String × PyValue)} (h : Plain (.dict items)) :
    ∀ e ∈ items, e.2.Plain := by
  intro e he name hname
  refine h name ?_
  rw [nodes_dict]
  exact List.mem_cons_of_mem _ (List.mem_flatMap.mpr ⟨e, he, hname⟩)

theorem converted_safe (v : PyValue) (h : v.Plain) : Converted v v.safe := by
  induction v using induct with
  | scalar v hscalar =>
    cases v with
    | list xs => cases hscalar
    | dict items => cases hscalar
    | object name => exact absurd (by simp [nodes]) (h name)
    | _ => rw [safe] <;> first | constructor | simp
  | list xs ih =>
    rw [safe_list]
    refine Converted.list (List.forall₂_map_right_iff.mpr (List.forall₂_same.mpr ?_))
    exact fun v hv => ih v hv (h.of_list v hv)
  | dict items ih =>
    rw [safe_dict]
    refine Converted.dict (by simp) ?_
    rw [List.map_map, List.forall₂_map_left_iff, List.forall₂_map_right_iff, List.forall₂_same]
    exact fun e he => ih e he (h.of_dict e he)

end Safe

end PyValue

open PyValue

section Unlimited

theorem toJsonSafeList_none {xs : List PyValue}
    (h : ∀ v ∈ xs, ∀ rows, toJsonSafeFrom none v rows = .ok (v.safe, rows)) (rows : ℕ) :
    toJsonSafeList none xs rows = .ok (xs.map safe, rows) := by
  induction xs generalizing rows with
  | nil => rfl
  | cons v xs ih =>
    have hhead := h v (by simp) rows
    have hrest := ih (fun w hw => h w (by simp [hw])) rows
    simp [toJsonSafeList, hhead, hrest, bind, Except.bind, pure, Except.pure]

theorem toJsonSafeItems_none {items : List (String × PyValue)}
    (h : ∀ e ∈ items, ∀ rows, toJsonSafeFrom none e.2 rows = .ok (e.2.safe, rows)) (rows : ℕ) :
    toJsonSafeItems none items rows = .ok (items.map fun e => (e.1, e.2.safe), rows) := by
  induction items generalizing rows with
  | nil => rfl
  | cons e items ih =>
    have hhead := h e (by simp) rows
    have hrest := ih (fun w hw => h w (by simp [hw])) rows
    simp [toJsonSafeItems, hhead, hrest, bind, Except.bind, pure, Except.pure]

theorem toJsonSafeFrom_none (v : PyValue) (rows : ℕ) :
    toJsonSafeFrom none v rows = .ok (v.safe, rows) := by
  induction v using PyValue.induct generalizing rows with
  | scalar v h =>
    cases v with
    | list xs => cases h
    | dict items => cases h
    | _ => simp [toJsonSafeFrom, safe]
  | list xs ih =>
    have hlist := toJsonSafeList_none ih rows
    simp [toJsonSafeFrom, countRows, hlist, bind, Except.bind, pure, Except.pure]
  | dict items ih =>
    have hitems := toJsonSafeItems_none ih rows
    simp [toJsonSafeFrom, hitems, bind, Except.bind, pure, Except.pure]

/-- Without limits the conversion always succeeds. -/
theorem toJsonSafe_eq (v : PyValue) : toJsonSafe v = .ok v.safe := by
  simp [toJsonSafe, toJsonSafeFrom_none, bind, Except.bind, pure, Except.pure]

end Unlimited

section Counting

/-- A traversal that starts at `rows` and adds `total` reaches its end exactly below the limit. -/
def Counts {α : Type} (limit rows total : ℕ) (result : α) (x : Except PyExc (α × ℕ)) : Prop :=
  (rows + total ≤ limit ∧ x = .ok (result, rows + total)) ∨
    (limit < rows + total ∧ ∃ message, x = .error (.resultLimitExceeded message))

variable {limit : ℕ}

theorem Counts.andThen {α β γ : Type} {rows total total' : ℕ} {a : α} {b : β}
    {x : Except PyExc (α × ℕ)} {f : ℕ → Except PyExc (β × ℕ)} (g : α → β → γ)
    (hx : Counts limit rows total a x)
    (hf : rows + total ≤ limit → Counts limit (rows + total) total' b (f (rows + total))) :
    Counts limit rows (total + total') (g a b)
      (x.bind fun p => (f p.2).bind fun q => .ok (g p.1 q.1, q.2)) := by
  cases hx with
  | inl hfits =>
    obtain ⟨hle, rfl⟩ := hfits
    cases hf hle with
    | inl hfits' =>
      obtain ⟨hle', hrest⟩ := hfits'
      refine Or.inl ⟨by omega, ?_⟩
      simp [hrest, Nat.add_assoc, Except.bind]
    | inr hexceeds =>
      obtain ⟨hlt, message, hrest⟩ := hexceeds
      refine Or.inr ⟨by omega, message, ?_⟩
      simp [hrest, Except.bind]
  | inr hexceeds =>
    obtain ⟨hlt, message, rfl⟩ := hexceeds
    exact Or.inr ⟨by omega, message, rfl⟩

theorem counts_list {xs : List PyValue}
    (h : ∀ v ∈ xs, ∀ rows ≤ limit,
      Counts limit rows v.totalRows v.safe (toJsonSafeFrom (some limit) v rows))
    (rows : ℕ) (hrows : rows ≤ limit) :
    Counts limit rows (xs.map totalRows).sum (xs.map safe)
      (toJsonSafeList (some limit) xs rows) := by
  induction xs generalizing rows with
  | nil => exact Or.inl ⟨hrows, rfl⟩
  | cons v xs ih =>
    rw [toJsonSafeList, List.map_cons, List.sum_cons, List.map_cons]
    refine Counts.andThen (fun v rest => v :: rest) (h v (by simp) rows hrows) ?_
    intro hle
    exact ih (fun w hw => h w (by simp [hw])) _ hle

theorem counts_items {items : List (String × PyValue)}
    (h : ∀ e ∈ items, ∀ rows ≤ limit,
      Counts limit rows e.2.totalRows e.2.safe (toJsonSafeFrom (some limit) e.2 rows))
    (rows : ℕ) (hrows : rows ≤ limit) :
    Counts limit rows (items.map fun e => e.2.totalRows).sum (items.map fun e => (e.1, e.2.safe))
      (toJsonSafeItems (some limit) items rows) := by
  induction items generalizing rows with
  | nil => exact Or.inl ⟨hrows, rfl⟩
  | cons e items ih =>
    rw [toJsonSafeItems, List.map_cons, List.sum_cons, List.map_cons]
    refine Counts.andThen (fun v rest => (e.1, v) :: rest) (h e (by simp) rows hrows) ?_
    intro hle
    exact ih (fun w hw => h w (by simp [hw])) _ hle

/-- The counter of the traversal is the sum over the whole tree. -/
theorem counts_from (v : PyValue) (rows : ℕ) (hrows : rows ≤ limit) :
    Counts limit rows v.totalRows v.safe (toJsonSafeFrom (some limit) v rows) := by
  induction v using PyValue.induct generalizing rows with
  | scalar v h =>
    rw [totalRows_scalar h]
    refine Or.inl ⟨hrows, ?_⟩
    cases v with
    | list xs => cases h
    | dict items => cases h
    | _ => simp [toJsonSafeFrom, safe]
  | list xs ih =>
    rw [totalRows_list, safe_list, toJsonSafeFrom]
    by_cases hlength : rows + xs.length ≤ limit
    · have hcount : countRows (some limit) xs.length rows = .ok (rows + xs.length) := by
        simp [countRows, hlength]
      cases counts_list ih (rows + xs.length) hlength with
      | inl hfits =>
        obtain ⟨hle, hlist⟩ := hfits
        refine Or.inl ⟨by omega, ?_⟩
        simp [hcount, hlist, Nat.add_assoc, bind, Except.bind, pure, Except.pure]
      | inr hexceeds =>
        obtain ⟨hlt, message, hlist⟩ := hexceeds
        refine Or.inr ⟨by omega, message, ?_⟩
        simp [hcount, hlist, bind, Except.bind]
    · obtain ⟨message, hcount⟩ : ∃ message, countRows (some limit) xs.length rows =
          .error (.resultLimitExceeded message) := ⟨_, if_pos (Nat.lt_of_not_le hlength)⟩
      refine Or.inr ⟨by omega, message, ?_⟩
      simp [hcount, bind, Except.bind]
  | dict items ih =>
    rw [totalRows_dict, safe_dict, toJsonSafeFrom]
    cases counts_items ih rows hrows with
    | inl hfits =>
      obtain ⟨hle, hitems⟩ := hfits
      refine Or.inl ⟨hle, ?_⟩
      simp [hitems, bind, Except.bind, pure, Except.pure]
    | inr hexceeds =>
      obtain ⟨hlt, message, hitems⟩ := hexceeds
      refine Or.inr ⟨hlt, message, ?_⟩
      simp [hitems, bind, Except.bind]

end Counting

section Encoding

theorem jsonElements_ok (xs : List PyValue) :
    (∃ texts, jsonElements xs = .ok texts) ↔ ∀ v ∈ xs, ∃ text, jsonDumps v = .ok text := by
  induction xs with
  | nil => simp [jsonElements]
  | cons v xs ih =>
    rw [List.forall_mem_cons, ← ih]
    constructor
    · rintro ⟨texts, htexts⟩
      obtain ⟨text, more, hhead, hrest, _⟩ := jsonElements_cons_ok.mp htexts
      exact ⟨⟨text, hhead⟩, more, hrest⟩
    · rintro ⟨⟨text, hhead⟩, more, hrest⟩
      exact ⟨_, jsonElements_cons_ok.mpr ⟨text, more, hhead, hrest, rfl⟩⟩

theorem jsonMembers_ok (items : List (String × PyValue)) :
    (∃ texts, jsonMembers items = .ok texts) ↔
      ∀ e ∈ items, ∃ text, jsonDumps e.2 = .ok text := by
  induction items with
  | nil => simp [jsonMembers]
  | cons e items ih =>
    rw [List.forall_mem_cons, ← ih]
    constructor
    · rintro ⟨texts, htexts⟩
      obtain ⟨text, more, hhead, hrest, _⟩ := jsonMembers_cons_ok.mp htexts
      exact ⟨⟨text, hhead⟩, more, hrest⟩
    · rintro ⟨⟨text, hhead⟩, more, hrest⟩
      exact ⟨_, jsonMembers_cons_ok.mpr ⟨text, more, hhead, hrest, rfl⟩⟩

theorem jsonDumps_list_ok (xs : List PyValue) :
    (∃ text, jsonDumps (.list xs) = .ok text) ↔ ∀ v ∈ xs, ∃ text, jsonDumps v = .ok text := by
  rw [← jsonElements_ok]
  simp only [jsonDumps_list_eq_ok, exists_comm, exists_and_left, exists_eq, and_true]

theorem jsonDumps_dict_ok (items : List (String × PyValue)) :
    (∃ text, jsonDumps (.dict items) = .ok text) ↔
      ∀ e ∈ items, ∃ text, jsonDumps e.2 = .ok text := by
  rw [← jsonMembers_ok]
  simp only [jsonDumps_dict_eq_ok, exists_comm, exists_and_left, exists_eq, and_true]

theorem finiteFloats_list (xs : List PyValue) :
    FiniteFloats (.list xs) ↔ ∀ v ∈ xs, v.FiniteFloats := by
  unfold FiniteFloats
  simp only [nodes_list, List.mem_cons, List.mem_flatMap]
  constructor
  · intro h v hv x hx
    exact h x (Or.inr ⟨v, hv, hx⟩)
  · intro h x hx
    cases hx with
    | inl hself => cases hself
    | inr hinside =>
      obtain ⟨v, hv, hx⟩ := hinside
      exact h v hv x hx

theorem finiteFloats_dict (items : List (String × PyValue)) :
    FiniteFloats (.dict items) ↔ ∀ e ∈ items, e.2.FiniteFloats := by
  unfold FiniteFloats
  simp only [nodes_dict, List.mem_cons, List.mem_flatMap]
  constructor
  · intro h e he x hx
    exact h x (Or.inr ⟨e, he, hx⟩)
  · intro h x hx
    cases hx with
    | inl hself => cases hself
    | inr hinside =>
      obtain ⟨e, he, hx⟩ := hinside
      exact h e he x hx

/-- After the conversion only a non-finite float stops the encoder. -/
theorem jsonDumps_safe_ok (v : PyValue) (h : v.Plain) :
    (∃ text, jsonDumps v.safe = .ok text) ↔ v.FiniteFloats := by
  induction v using PyValue.induct with
  | scalar v hscalar =>
    unfold FiniteFloats
    rw [nodes_scalar hscalar]
    cases v with
    | list xs => cases hscalar
    | dict items => cases hscalar
    | object name => exact absurd (by simp [nodes]) (h name)
    | float x => cases x <;> simp [safe, jsonDumps, jsonFloat]
    | _ => simp [safe, jsonDumps]
  | list xs ih =>
    rw [safe_list, jsonDumps_list_ok, finiteFloats_list, List.forall_mem_map]
    exact forall₂_congr fun v hv => ih v hv (h.of_list v hv)
  | dict items ih =>
    rw [safe_dict, jsonDumps_dict_ok, finiteFloats_dict, List.forall_mem_map]
    exact forall₂_congr fun e he => ih e he (h.of_dict e he)

end Encoding

section Exact

variable (limits : ResultLimitPolicy) (value : PyValue)

/-- What the limits stand for: no more and no less than the rows, the floats and the size of the
encoded result; what is let through is the converted value, and lets itself through again. -/
structure ApplyExact : Prop where
  converted : ∃ result, toJsonSafe value = .ok result ∧ Converted value result
  accepts : (∃ result, limits.apply value = .ok result) ↔
    value.totalRows ≤ limits.maxTableRows ∧ value.FiniteFloats ∧
    ∀ result text, toJsonSafe value = .ok result → jsonDumps result = .ok text →
      text.utf8ByteSize ≤ limits.maxSerializedBytes
  returns : ∀ result, limits.apply value = .ok result → toJsonSafe value = .ok result
  again : ∀ result (looser : ResultLimitPolicy), limits.apply value = .ok result →
    limits.maxTableRows ≤ looser.maxTableRows →
    limits.maxSerializedBytes ≤ looser.maxSerializedBytes → looser.apply result = .ok result

/-- How `apply` comes out, and why. -/
inductive Applied : Except PyExc PyValue → Prop
  | rows (hrows : limits.maxTableRows < value.totalRows) (message : String) :
      Applied (.error (.resultLimitExceeded message))
  | encoder {exc : PyExc} (hrows : value.totalRows ≤ limits.maxTableRows)
      (hdumps : jsonDumps value.safe = .error exc) : Applied (.error exc)
  | bytes {text : String} (hrows : value.totalRows ≤ limits.maxTableRows)
      (hdumps : jsonDumps value.safe = .ok text)
      (hbytes : limits.maxSerializedBytes < text.utf8ByteSize) (message : String) :
      Applied (.error (.resultLimitExceeded message))
  | fits {text : String} (hrows : value.totalRows ≤ limits.maxTableRows)
      (hdumps : jsonDumps value.safe = .ok text)
      (hbytes : text.utf8ByteSize ≤ limits.maxSerializedBytes) : Applied (.ok value.safe)

theorem applied : Applied limits value (limits.apply value) := by
  unfold ResultLimitPolicy.apply
  cases counts_from value 0 (Nat.zero_le limits.maxTableRows) with
  | inr hexceeds =>
    obtain ⟨hlt, message, hfrom⟩ := hexceeds
    rw [hfrom]
    exact .rows (by omega) message
  | inl hfits =>
    obtain ⟨hle, hfrom⟩ := hfits
    rw [Nat.zero_add] at hle
    rw [hfrom]
    cases hdumps : jsonDumps value.safe with
    | error exc =>
      simp only [bind, Except.bind, hdumps]
      exact .encoder hle hdumps
    | ok text =>
      simp only [bind, Except.bind, hdumps]
      split
      · exact .bytes hle hdumps (by assumption) _
      · exact .fits hle hdumps (by omega)

variable {limits value}

theorem apply_ok_iff (result : PyValue) : limits.apply value = .ok result ↔
    value.totalRows ≤ limits.maxTableRows ∧ result = value.safe ∧
    ∃ text, jsonDumps value.safe = .ok text ∧ text.utf8ByteSize ≤ limits.maxSerializedBytes := by
  have happlied := applied limits value
  constructor
  · intro h
    rw [h] at happlied
    cases happlied with
    | fits hrows hdumps hbytes => exact ⟨hrows, rfl, _, hdumps, hbytes⟩
  · rintro ⟨hrows, rfl, text, hdumps, hbytes⟩
    generalize limits.apply value = outcome at happlied
    cases happlied with
    | rows hexceeds => omega
    | encoder _ herror =>
      rw [hdumps] at herror
      cases herror
    | bytes _ hdumps' hexceeds =>
      rw [hdumps] at hdumps'
      cases hdumps'
      omega
    | fits => rfl

theorem apply_exact (h : value.Plain) : ApplyExact limits value := by
  constructor
  · exact ⟨value.safe, toJsonSafe_eq value, converted_safe value h⟩
  · constructor
    · intro haccepts
      obtain ⟨result, hresult⟩ := haccepts
      obtain ⟨hrows, _, text, hdumps, hsize⟩ := (apply_ok_iff result).mp hresult
      refine ⟨hrows, (jsonDumps_safe_ok value h).mp ⟨text, hdumps⟩, ?_⟩
      intro safe text' hsafe hdumps'
      rw [toJsonSafe_eq] at hsafe
      cases hsafe
      rw [hdumps] at hdumps'
      cases hdumps'
      exact hsize
    · intro hbounds
      obtain ⟨hrows, hfinite, hsize⟩ := hbounds
      obtain ⟨text, hdumps⟩ := (jsonDumps_safe_ok value h).mpr hfinite
      have hbytes := hsize _ text (toJsonSafe_eq value) hdumps
      exact ⟨value.safe, (apply_ok_iff _).mpr ⟨hrows, rfl, text, hdumps, hbytes⟩⟩
  · intro result hresult
    obtain ⟨_, rfl, _⟩ := (apply_ok_iff result).mp hresult
    exact toJsonSafe_eq value
  · intro result looser hresult hrows hbytes
    obtain ⟨hfits, rfl, text, hdumps, hsize⟩ := (apply_ok_iff result).mp hresult
    refine (apply_ok_iff _).mpr ⟨?_, (safe_safe value).symm, text, ?_, ?_⟩
    · rw [totalRows_safe]
      exact Nat.le_trans hfits hrows
    · rw [safe_safe]
      exact hdumps
    · exact Nat.le_trans hsize hbytes

theorem apply_exact_nested :
    ApplyExact { maxTableRows := 3 }
      (.dict [("OUTER", .list [.dict [("NESTED", .list [.int 1, .date "2020-01-01"])]])]) := by
  refine apply_exact ?_
  intro name
  simp [PyValue.nodes, PyValue.listNodes, PyValue.itemNodes]

end Exact

end RfcMcp
