import RfcMcp.Python.Value

namespace RfcMcp

section Dict

variable {α : Type}

theorem lookup_mem {d : List (String × α)} {key : String} {a : α}
    (h : d.lookup key = some a) : (key, a) ∈ d := by
  induction d with
  | nil => cases h
  | cons e d ih =>
    rw [List.lookup_cons] at h
    by_cases he : key == e.1
    · rw [he] at h
      obtain rfl : e.2 = a := by simpa using h
      obtain rfl : key = e.1 := by simpa using he
      exact List.mem_cons_self
    · rw [Bool.not_eq_true] at he
      rw [he] at h
      exact List.mem_cons_of_mem _ (ih h)

theorem erase_notMem {d : List (String × α)} {key : String} (h : key ∉ d.map (·.1)) :
    PyDict.erase d key = d := by
  refine List.filter_eq_self.mpr fun e he => ?_
  simp only [bne_iff_ne, ne_eq]
  rintro rfl
  exact h (List.mem_map_of_mem he)

/-- Removing a key that is there takes out exactly its entry. -/
theorem erase_perm {d : List (String × α)} {key : String} {a : α}
    (hnodup : (d.map (·.1)).Nodup) (h : d.lookup key = some a) :
    d.Perm ((key, a) :: PyDict.erase d key) := by
  induction d with
  | nil => cases h
  | cons e d ih =>
    rw [List.map_cons, List.nodup_cons] at hnodup
    rw [List.lookup_cons] at h
    by_cases he : key == e.1
    · rw [he] at h
      obtain rfl : e.2 = a := by simpa using h
      obtain rfl : key = e.1 := by simpa using he
      have hrest : PyDict.erase (e :: d) e.1 = d := by
        have hdrop : PyDict.erase (e :: d) e.1 = PyDict.erase d e.1 := by
          simp [PyDict.erase]
        rw [hdrop, erase_notMem hnodup.1]
      rw [hrest]
    · rw [Bool.not_eq_true] at he
      rw [he] at h
      have hkeep : PyDict.erase (e :: d) key = e :: PyDict.erase d key := by
        have hne : (e.1 != key) = true := by
          simp only [bne_iff_ne, ne_eq]
          rintro rfl
          simp at he
        simp [PyDict.erase, hne]
      rw [hkeep]
      exact ((ih hnodup.2 h).cons e).trans (List.Perm.swap _ _ _)

theorem lookup_eq_some {d : List (String × α)} {key : String} {a : α}
    (hnodup : (d.map (·.1)).Nodup) (h : (key, a) ∈ d) : d.lookup key = some a := by
  induction d with
  | nil => cases h
  | cons e d ih =>
    rw [List.map_cons, List.nodup_cons] at hnodup
    rw [List.lookup_cons]
    rcases List.mem_cons.mp h with rfl | hmem
    · simp
    · have hne : (key == e.1) = false := by
        refine beq_false_of_ne ?_
        rintro rfl
        exact hnodup.1 (List.mem_map.mpr ⟨_, hmem, rfl⟩)
      rw [hne]
      exact ih hnodup.2 hmem

theorem set_of_notMem {d : List (String × α)} {key : String} (value : α)
    (h : key ∉ d.map (·.1)) : PyDict.set d key value = d ++ [(key, value)] := by
  refine if_neg ?_
  intro hany
  obtain ⟨e, he, hkey⟩ := List.any_eq_true.mp hany
  exact h (List.mem_map.mpr ⟨e, he, beq_iff_eq.mp hkey⟩)

theorem lookup_set {d : List (String × α)} {key : String} {a : α} :
    (PyDict.set d key a).lookup key = some a := by
  unfold PyDict.set
  by_cases hany : d.any (·.1 == key) = true
  · rw [if_pos hany]
    induction d with
    | nil => cases hany
    | cons e d ih =>
      rw [List.map_cons, List.lookup_cons]
      by_cases he : (e.1 == key) = true
      · rw [if_pos he]
        simp
      · rw [if_neg he]
        have hne : (key == e.1) = false := by
          rw [Bool.eq_false_iff]
          intro heq
          exact he (beq_iff_eq.mpr (beq_iff_eq.mp heq).symm)
        rw [hne]
        rw [List.any_cons, Bool.eq_false_iff.mpr he, Bool.false_or] at hany
        exact ih hany
  · rw [if_neg hany]
    have hnone : d.lookup key = none := by
      refine List.lookup_eq_none_iff.mpr fun e he => ?_
      rw [bne_iff_ne]
      rintro rfl
      exact hany (List.any_eq_true.mpr ⟨e, he, beq_self_eq_true e.1⟩)
    rw [List.lookup_append, hnone]
    simp

theorem lookup_set_ne {d : List (String × α)} {key key' : String} {a : α} (hkey : key ≠ key') :
    (PyDict.set d key' a).lookup key = d.lookup key := by
  have hmiss : (key == key') = false := beq_false_of_ne hkey
  have hmap : (d.map fun e => if e.1 == key' then (key', a) else e).lookup key =
      d.lookup key := by
    induction d with
    | nil => rfl
    | cons e d ih =>
      rw [List.map_cons, List.lookup_cons, List.lookup_cons, ih]
      by_cases he : (e.1 == key') = true
      · have hmiss' : (key == e.1) = false := by
          rw [eq_of_beq he]
          exact hmiss
        simp only [he, if_true, hmiss, hmiss']
      · rw [if_neg he]
  unfold PyDict.set
  split
  · exact hmap
  · rw [List.lookup_append]
    simp [List.lookup_cons, hmiss]

@[simp] theorem lookup_erase_self (d : List (String × α)) (key : String) :
    (PyDict.erase d key).lookup key = none := by
  unfold PyDict.erase
  induction d with
  | nil => rfl
  | cons e d ih =>
    rw [List.filter_cons]
    split
    · rename_i he
      have hmiss : (key == e.1) = false := by
        rw [bne_iff_ne, ne_comm] at he
        exact beq_false_of_ne he
      rw [List.lookup_cons, hmiss]
      exact ih
    · exact ih

theorem lookup_erase_ne {d : List (String × α)} {key key' : String} (hkey : key ≠ key') :
    (PyDict.erase d key').lookup key = d.lookup key := by
  unfold PyDict.erase
  induction d with
  | nil => rfl
  | cons e d ih =>
    rw [List.filter_cons, List.lookup_cons]
    split
    · rw [List.lookup_cons, ih]
    · rename_i he
      have hmiss : (key == e.1) = false := by
        obtain rfl : e.1 = key' := by simpa using he
        exact beq_false_of_ne hkey
      rw [hmiss]
      exact ih

/-- What is in a dictionary after `d[key] = value` was there before, or has just been set. -/
theorem mem_set {d : List (String × α)} {key : String} {a : α} {e : String × α}
    (h : e ∈ PyDict.set d key a) : e = (key, a) ∨ e ∈ d := by
  unfold PyDict.set at h
  split at h
  · obtain ⟨e', he', rfl⟩ := List.mem_map.mp h
    by_cases hkey : (e'.1 == key) = true
    · exact .inl (if_pos hkey)
    · rw [if_neg hkey]
      exact .inr he'
  · exact (List.mem_append.mp h).symm.imp_left List.mem_singleton.mp

/-- What was a key stays one. -/
theorem key_set {d : List (String × α)} {key key' : String} {a : α} :
    key ∈ (PyDict.set d key' a).map (·.1) ↔ key = key' ∨ key ∈ d.map (·.1) := by
  have hkeys : (d.map fun e => if e.1 == key' then (key', a) else e).map (·.1) = d.map (·.1) := by
    rw [List.map_map]
    refine List.map_congr_left fun e _ => ?_
    by_cases he : (e.1 == key') = true
    · simp [eq_of_beq he]
    · rw [Function.comp_apply, if_neg he]
  unfold PyDict.set
  split
  · rename_i hany
    rw [hkeys]
    refine ⟨.inr, fun h => h.elim (fun heq => ?_) id⟩
    obtain ⟨e, he, hkey⟩ := List.any_eq_true.mp hany
    rw [heq, ← eq_of_beq hkey]
    exact List.mem_map_of_mem he
  · simp only [List.map_append, List.mem_append, List.map_cons, List.map_nil, List.mem_singleton]
    exact or_comm

end Dict

end RfcMcp
