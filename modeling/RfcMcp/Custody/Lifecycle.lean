import RfcMcp.Custody.Stages

namespace RfcMcp

open Framework

variable {cfg : AppSettings} {Request Reply : Type} {program : Request → Program Effects Reply}
  {w : Hands cfg program} {t : ℕ} {e : Entry}

section Counting

def isEntry (e e' : Entry) : Bool := decide (e' = e)

/-- The transactions that are in the table or with the thread that took them out. -/
def Hands.openCount (w : Hands cfg program) (p : Entry → Bool) : ℕ :=
  w.shared.table.countP p + w.total fun g : Custody => g.removed.countP p

/-- The transactions that have ever been in the table. -/
def Hands.seenCount (w : Hands cfg program) (p : Entry → Bool) : ℕ :=
  w.openCount p + w.total fun g : Custody => g.released.countP p

def Hands.Open (w : Hands cfg program) (e : Entry) : Prop := 0 < w.openCount (isEntry e)

def Hands.Seen (w : Hands cfg program) (e : Entry) : Prop := 0 < w.seenCount (isEntry e)

theorem countP_isEntry_pos {l : List Entry} : 0 < l.countP (isEntry e) ↔ e ∈ l := by
  rw [List.countP_pos_iff]
  simp [isEntry]

/-- Outside of its size a crew has nothing in its hands. -/
theorem Hands.lt_of_mem (h : w.Reachable) {f : Custody → List Entry} (hf : f {} = [])
    (ht : e ∈ f (w.locals t)) : t < w.size := by
  by_contra hle
  rw [h.unborn (Nat.le_of_not_lt hle)] at ht
  change e ∈ f {} at ht
  rw [hf] at ht
  cases ht

theorem Hands.open_iff (h : w.Reachable) :
    w.Open e ↔ e ∈ w.shared.table ∨ ∃ t, e ∈ (w.locals t).removed := by
  constructor
  · intro hopen
    by_cases hmem : e ∈ w.shared.table
    · exact .inl hmem
    have hzero : w.shared.table.countP (isEntry e) = 0 := by
      have hcount := mt countP_isEntry_pos.mp hmem
      omega
    have hpos : 0 < w.total fun g : Custody => g.removed.countP (isEntry e) := by
      unfold Hands.Open Hands.openCount at hopen
      omega
    obtain ⟨t, _, ht⟩ := Crew.exists_of_total_pos _ hpos
    exact .inr ⟨t, countP_isEntry_pos.mp ht⟩
  · intro hmem
    unfold Hands.Open Hands.openCount
    rcases hmem with hmem | ⟨t, ht⟩
    · have hpos := countP_isEntry_pos.mpr hmem
      omega
    · have hlt := Hands.lt_of_mem (f := Custody.removed) h rfl ht
      have hle := Crew.le_total (fun g : Custody => g.removed.countP (isEntry e)) hlt
      have hpos := countP_isEntry_pos.mpr ht
      omega

theorem Hands.Open.seen (he : w.Open e) : w.Seen e := by
  unfold Hands.Seen Hands.seenCount
  unfold Hands.Open at he
  omega

theorem Hands.seen_of_released (h : w.Reachable) (ht : e ∈ (w.locals t).released) : w.Seen e := by
  have hlt := Hands.lt_of_mem (f := Custody.released) h rfl ht
  have hle := Crew.le_total (fun g : Custody => g.released.countP (isEntry e)) hlt
  have hpos := countP_isEntry_pos.mpr ht
  unfold Hands.Seen Hands.seenCount
  omega

theorem Hands.openCount_advance (h : w.Reachable) (ht : t < w.size) {o : Op} {v : o.Res}
    {s : Shared} (hallowed : (w.locals t).allows cfg.limits o) (hdoes : Does cfg t w.shared o v s)
    (p : Entry → Bool) :
    Hands.openCount (w.advance t o v s) p + weight p o.leaves =
      w.openCount p + weight p o.enters := by
  have hentries := entries_step (Hands.ids_nodup h) (Hands.enters_fresh h ht hallowed) hallowed
    hdoes p
  have htotal := Crew.total_advance (fun g : Custody => g.removed.countP p) w ht o v s
  change _ = _ + ((w.locals t).after cfg.limits o v).removed.countP p at htotal
  have htable : Crew.shared (w.advance t o v s) = s := rfl
  unfold Hands.openCount
  rw [htable]
  omega

theorem Hands.seenCount_advance (h : w.Reachable) (ht : t < w.size) {o : Op} {v : o.Res}
    {s : Shared} (hallowed : (w.locals t).allows cfg.limits o) (hdoes : Does cfg t w.shared o v s)
    (p : Entry → Bool) :
    Hands.seenCount (w.advance t o v s) p = w.seenCount p + weight p o.enters := by
  have hopen := Hands.openCount_advance h ht hallowed hdoes p
  have hreleased := released_step cfg.limits (w.locals t) p o v
  have htotal := Crew.total_advance (fun g : Custody => g.released.countP p) w ht o v s
  change _ = _ + ((w.locals t).after cfg.limits o v).released.countP p at htotal
  unfold Hands.seenCount
  omega

/-- Once seen, a transaction stays seen. -/
theorem Hands.Seen.advance (he : w.Seen e) (h : w.Reachable) (ht : t < w.size) {o : Op}
    {v : o.Res} {s : Shared} (hallowed : (w.locals t).allows cfg.limits o)
    (hdoes : Does cfg t w.shared o v s) : Hands.Seen (w.advance t o v s) e := by
  have hcount := Hands.seenCount_advance h ht hallowed hdoes (isEntry e)
  unfold Hands.Seen at he ⊢
  omega

/-- An open transaction stays open until its connection is passed to the pool. -/
theorem Hands.Open.advance (he : w.Open e) (h : w.Reachable) (ht : t < w.size) {o : Op}
    {v : o.Res} {s : Shared} (hallowed : (w.locals t).allows cfg.limits o)
    (hdoes : Does cfg t w.shared o v s) (hleaves : o.leaves ≠ some e) :
    Hands.Open (w.advance t o v s) e := by
  have hcount := Hands.openCount_advance h ht hallowed hdoes (isEntry e)
  have hzero : weight (isEntry e) o.leaves = 0 := by
    cases hl : o.leaves with
    | none => rfl
    | some e' =>
      have hne : e' ≠ e := fun he' => hleaves (by rw [hl, he'])
      simp [weight, isEntry, hne]
  unfold Hands.Open at he ⊢
  omega

end Counting

section Uniqueness

theorem Hands.ref_count (h : w.Reachable) (ref : Nat) :
    w.seenCount (hasRef ref) +
      w.total (fun g : Custody => g.fresh.toList.countP fun a => decide (a.ref = ref)) ≤ 1 := by
  have href := Hands.refs_conserved h ref
  have hsplit := Crew.total_add
    (fun g : Custody => g.fresh.toList.countP fun a => decide (a.ref = ref))
    (fun g : Custody => g.removed.countP (hasRef ref) + g.released.countP (hasRef ref)) w
  have hsplit' := Crew.total_add (fun g : Custody => g.removed.countP (hasRef ref))
    (fun g : Custody => g.released.countP (hasRef ref)) w
  change w.total (Custody.refCount ref) = _ at hsplit
  change w.total (fun g : Custody =>
    g.removed.countP (hasRef ref) + g.released.countP (hasRef ref)) = _ at hsplit'
  unfold Hands.seenCount Hands.openCount
  split at href <;> omega

theorem Hands.seenCount_mono {p q : Entry → Bool} (h : ∀ e, p e = true → q e = true) :
    w.seenCount p ≤ w.seenCount q := by
  have hcount : ∀ l : List Entry, l.countP p ≤ l.countP q := fun l =>
    List.countP_mono_left fun e _ => h e
  have htable := hcount w.shared.table
  have hremoved := Crew.total_le (fun g : Custody => g.removed.countP p)
    (fun g : Custody => g.removed.countP q) (w := w) fun t => hcount (w.locals t).removed
  have hreleased := Crew.total_le (fun g : Custody => g.released.countP p)
    (fun g : Custody => g.released.countP q) (w := w) fun t => hcount (w.locals t).released
  unfold Hands.seenCount Hands.openCount
  omega

theorem countP_add_le {e e' : Entry} {p : Entry → Bool} (hne : e ≠ e') (hp : p e = true)
    (hp' : p e' = true) (l : List Entry) :
    l.countP (isEntry e) + l.countP (isEntry e') ≤ l.countP p := by
  induction l with
  | nil => rfl
  | cons a l ih =>
    simp only [List.countP_cons, isEntry, decide_eq_true_eq] at ih ⊢
    by_cases ha : a = e
    · subst ha
      simp only [if_true, hp, if_neg hne]
      omega
    · by_cases ha' : a = e'
      · subst ha'
        simp only [if_true, hp', if_neg ha]
        omega
      · simp only [if_neg ha, if_neg ha']
        omega

/-- Two transactions count twice, wherever they are. -/
theorem Hands.total_countP_add_le {e e' : Entry} {p : Entry → Bool} (hne : e ≠ e')
    (hp : p e = true) (hp' : p e' = true) (f : Custody → List Entry) :
    (w.total fun g : Custody => (f g).countP (isEntry e)) +
      (w.total fun g : Custody => (f g).countP (isEntry e')) ≤
    w.total fun g : Custody => (f g).countP p := by
  have hadd := Crew.total_add (fun g : Custody => (f g).countP (isEntry e))
    (fun g : Custody => (f g).countP (isEntry e')) w
  have hle := Crew.total_le
    (fun g : Custody => (f g).countP (isEntry e) + (f g).countP (isEntry e'))
    (fun g : Custody => (f g).countP p) (w := w) fun t => countP_add_le hne hp hp' (f (w.locals t))
  exact Nat.le_trans (Nat.le_of_eq hadd.symm) hle

theorem Hands.two_le_openCount {e e' : Entry} {p : Entry → Bool} (he : w.Open e) (he' : w.Open e')
    (hne : e ≠ e') (hp : p e = true) (hp' : p e' = true) : 2 ≤ w.openCount p := by
  have htable := countP_add_le hne hp hp' w.shared.table
  have hremoved := Hands.total_countP_add_le (w := w) hne hp hp' Custody.removed
  unfold Hands.Open Hands.openCount at he he'
  unfold Hands.openCount
  omega

theorem Hands.two_le_seenCount {e e' : Entry} {p : Entry → Bool} (he : w.Seen e) (he' : w.Seen e')
    (hne : e ≠ e') (hp : p e = true) (hp' : p e' = true) : 2 ≤ w.seenCount p := by
  have htable := countP_add_le hne hp hp' w.shared.table
  have hremoved := Hands.total_countP_add_le (w := w) hne hp hp' Custody.removed
  have hreleased := Hands.total_countP_add_le (w := w) hne hp hp' Custody.released
  unfold Hands.Seen Hands.seenCount Hands.openCount at he he'
  unfold Hands.seenCount Hands.openCount
  omega

theorem Hands.seenId_le_one (h : w.Reachable) (id : TxId) : w.seenCount (hasId id) ≤ 1 := by
  have hid := Hands.ids_conserved h id
  have hsplit := Crew.total_add
    (fun g : Custody => g.token.toList.count id)
    (fun g : Custody => g.removed.countP (hasId id) + g.released.countP (hasId id)) w
  have hsplit' := Crew.total_add (fun g : Custody => g.removed.countP (hasId id))
    (fun g : Custody => g.released.countP (hasId id)) w
  change w.total (Custody.idCount id) = _ at hsplit
  change w.total (fun g : Custody =>
    g.removed.countP (hasId id) + g.released.countP (hasId id)) = _ at hsplit'
  unfold Hands.seenCount Hands.openCount
  split at hid <;> omega

/-- An ID names one transaction, over the whole run. -/
theorem Hands.id_unique (h : w.Reachable) {e e' : Entry} (he : w.Seen e) (he' : w.Seen e')
    (hid : e.1 = e'.1) : e = e' := by
  by_contra hne
  have htwo := Hands.two_le_seenCount he he' hne (p := hasId e.1) (by simp [hasId])
    (by simp [hasId, hid])
  have hone := Hands.seenId_le_one h e.1
  omega

theorem Hands.ref_unique (h : w.Reachable) {e e' : Entry} (he : w.Seen e) (he' : w.Seen e')
    (href : e.2.ref = e'.2.ref) : e = e' := by
  by_contra hne
  have htwo := Hands.two_le_seenCount he he' hne (p := hasRef e.2.ref) (by simp [hasRef])
    (by simp [hasRef, href])
  have hone := Hands.ref_count h e.2.ref
  omega

theorem Hands.seen_le_one (h : w.Reachable) (e : Entry) : w.seenCount (isEntry e) ≤ 1 := by
  have hmono : w.seenCount (isEntry e) ≤ w.seenCount (hasRef e.2.ref) := by
    refine Hands.seenCount_mono fun e' he' => ?_
    obtain rfl : e' = e := by simpa [isEntry] using he'
    simp [hasRef]
  have href := Hands.ref_count h e.2.ref
  omega

/-- What is being registered has not been in the table before. -/
theorem Hands.not_seen (h : w.Reachable) (ht : t < w.size) {o : Op}
    (hallowed : (w.locals t).allows cfg.limits o) (he : o.enters = some e) : ¬w.Seen e := by
  intro hseen
  cases o <;> try cases he
  rename_i id a
  obtain ⟨_, _, hfresh, _⟩ := hallowed
  have hmono : w.seenCount (isEntry (id, a)) ≤ w.seenCount (hasRef a.ref) := by
    refine Hands.seenCount_mono fun e' he' => ?_
    obtain rfl : e' = (id, a) := by simpa [isEntry] using he'
    simp [hasRef]
  have href := Hands.ref_count h a.ref
  have hmine := Crew.le_total
    (fun g : Custody => g.fresh.toList.countP fun b => decide (b.ref = a.ref)) ht
  have hpos : 0 < (w.locals t).fresh.toList.countP fun b => decide (b.ref = a.ref) := by
    rw [hfresh]
    simp
  unfold Hands.Seen at hseen
  omega

/-- A transaction that someone has taken out, or released, is not in the table. -/
theorem Hands.notMem_table (h : w.Reachable)
    (he : e ∈ (w.locals t).removed ∨ e ∈ (w.locals t).released) : e ∉ w.shared.table := by
  intro hmem
  have hone := Hands.seen_le_one h e
  have htable := countP_isEntry_pos.mpr hmem
  unfold Hands.seenCount Hands.openCount at hone
  rcases he with he | he
  · have hlt := Hands.lt_of_mem (f := Custody.removed) h rfl he
    have hle := Crew.le_total (fun g : Custody => g.removed.countP (isEntry e)) hlt
    have hpos := countP_isEntry_pos.mpr he
    omega
  · have hlt := Hands.lt_of_mem (f := Custody.released) h rfl he
    have hle := Crew.le_total (fun g : Custody => g.released.countP (isEntry e)) hlt
    have hpos := countP_isEntry_pos.mpr he
    omega

/-- The table comes to hold only what is registered. -/
theorem mem_table_of_does {s s' : Shared} {o : Op} {v : o.Res} (hdoes : Does cfg t s o v s')
    (he : e ∈ s'.table) (hfresh : ∀ e, o.enters = some e → e.1 ∉ s.ids) :
    e ∈ s.table ∨ o.enters = some e := by
  cases hdoes
  case register id a =>
    change e ∈ PyDict.set s.table id a at he
    rw [set_of_notMem a (hfresh _ rfl), List.mem_append, List.mem_singleton] at he
    rcases he with he | rfl
    · exact .inl he
    · exact .inr rfl
  case removed id a hid => exact .inl (List.mem_of_mem_filter he)
  case expired id a cutoff hid hcutoff => exact .inl (List.mem_of_mem_filter he)
  case drain => cases he
  all_goals exact .inl he

/-- An entry that has been seen cannot come back into the table. -/
theorem Hands.notMem_advance (hseen : w.Seen e) (he : e ∉ w.shared.table) (h : w.Reachable)
    (ht : t < w.size) {o : Op} {v : o.Res} {s : Shared}
    (hallowed : (w.locals t).allows cfg.limits o) (hdoes : Does cfg t w.shared o v s) :
    e ∉ s.table := by
  intro hmem
  rcases mem_table_of_does hdoes hmem (Hands.enters_fresh h ht hallowed) with hold | henters
  · exact he hold
  · exact Hands.not_seen h ht hallowed henters hseen

end Uniqueness

end RfcMcp
