import RfcMcp.Framework.Oracle
import Mathlib.Data.List.Forall2
import Mathlib.Data.List.Nodup

namespace Framework

namespace Action

variable {S : Signature} {ε α β κ : Type} {oracle : (o : S.Op) → S.Res o}

/-- The operations that `x` performs are those of different keys; unless `x` raises, every key has
had its turn. -/
def Keyed (oracle : (o : S.Op) → S.Res o) (R : κ → S.Op → Prop) (x : Action S ε α) : Prop :=
  ∃ keys : List κ, keys.Nodup ∧ List.Forall₂ R keys (x.asked oracle) ∧
    ∀ a, x.outcome oracle = .ok a → ∀ key o, R key o → key ∈ keys

theorem keyed_silent {R : κ → S.Op → Prop} {x : Action S ε α} (hasked : x.asked oracle = [])
    (hnone : ∀ a, x.outcome oracle = .ok a → ∀ key o, ¬R key o) : Keyed oracle R x := by
  have hkeys : List.Forall₂ R [] (x.asked oracle) := by
    rw [hasked]
    exact List.Forall₂.nil
  exact ⟨[], List.nodup_nil, hkeys, fun a ha key o hkey => absurd hkey (hnone a ha key o)⟩

theorem keyed_congr {R : κ → S.Op → Prop} {x : Action S ε α} {y : Action S ε β}
    (hasked : x.asked oracle = y.asked oracle)
    (hends : ∀ a, x.outcome oracle = .ok a → ∃ b, y.outcome oracle = .ok b)
    (hy : Keyed oracle R y) : Keyed oracle R x := by
  obtain ⟨keys, hnodup, hkeys, hall⟩ := hy
  rw [← hasked] at hkeys
  have hall' : ∀ a, x.outcome oracle = .ok a → ∀ key o, R key o → key ∈ keys := by
    intro a ha
    obtain ⟨b, hb⟩ := hends a ha
    exact hall b hb
  exact ⟨keys, hnodup, hkeys, hall'⟩

section Collect

variable {items : List α} {body : α → Action S ε (List β)}

theorem asked_collect_ok {a : α} {rest : List α} {found : List β}
    (h : (body a).outcome oracle = .ok found) : (collect (a :: rest) body).asked oracle =
      (body a).asked oracle ++ (collect rest body).asked oracle := by
  have hmore : (collect rest body >>= fun more => pure (found ++ more) :
      Action S ε (List β)).asked oracle = (collect rest body).asked oracle := by
    cases hrest : (collect rest body).outcome oracle with
    | error e => exact asked_bind_error hrest
    | ok more => exact (asked_bind_ok hrest).trans (List.append_nil _)
  rw [← hmore]
  exact asked_bind_ok h

theorem asked_collect_error {a : α} {rest : List α} {e : ε}
    (h : (body a).outcome oracle = .error e) :
    (collect (a :: rest) body).asked oracle = (body a).asked oracle :=
  asked_bind_error h

/-- Keys of a loop are keys of its items, paired with the item's position. -/
theorem keyed_collect {R : ℕ × κ → S.Op → Prop}
    (hitem : ∀ i a, items[i]? = some a → Keyed oracle (fun key o => R (i, key) o) (body a))
    (hrange : ∀ i key o, R (i, key) o → i < items.length) :
    Keyed oracle R (collect items body) := by
  induction items generalizing R with
  | nil =>
    apply keyed_silent rfl
    intro _ _ key o hkey
    exact Nat.not_lt_zero _ (hrange key.1 key.2 o hkey)
  | cons a rest ih =>
    obtain ⟨keys, hnodup, hkeys, hall⟩ := hitem 0 a rfl
    have hfirst : (keys.map fun key => (0, key)).Nodup := by
      apply hnodup.map
      intro key key' heq
      simpa using heq
    have hkeys' : List.Forall₂ R (keys.map fun key => (0, key)) ((body a).asked oracle) :=
      List.forall₂_map_left_iff.mpr hkeys
    cases ha : (body a).outcome oracle with
    | error e =>
      refine ⟨keys.map fun key => (0, key), hfirst, ?_, ?_⟩
      · rw [asked_collect_error ha]
        exact hkeys'
      · intro found hfound
        rw [outcome_collect_cons, ha] at hfound
        cases hfound
    | ok found =>
      have hrest : Keyed oracle (fun key : ℕ × κ => R (key.1 + 1, key.2)) (collect rest body) := by
        apply ih
        · intro i b hb
          exact hitem (i + 1) b hb
        · intro i key o hkey
          have hless := hrange (i + 1) key o hkey
          simpa using hless
      obtain ⟨later, hlater, hasked, hend⟩ := hrest
      refine ⟨keys.map (fun key => (0, key)) ++ later.map fun key => (key.1 + 1, key.2), ?_, ?_, ?_⟩
      · apply hfirst.append
        · apply hlater.map
          intro key key' heq
          simpa [Prod.ext_iff] using heq
        · intro key hkey hkey'
          simp only [List.mem_map] at hkey hkey'
          obtain ⟨key, -, rfl⟩ := hkey
          obtain ⟨key', -, heq⟩ := hkey'
          simp at heq
      · rw [asked_collect_ok ha]
        exact List.rel_append hkeys' (List.forall₂_map_left_iff.mpr hasked)
      · intro all hfound key o hkey
        obtain ⟨i, key⟩ := key
        cases i with
        | zero =>
          apply List.mem_append_left
          exact List.mem_map.mpr ⟨key, hall found ha key o hkey, rfl⟩
        | succ i =>
          apply List.mem_append_right
          rw [outcome_collect_cons, ha] at hfound
          cases hmore : (collect rest body).outcome oracle with
          | error e =>
            rw [hmore] at hfound
            cases hfound
          | ok more => exact List.mem_map.mpr ⟨(i, key), hend more hmore (i, key) o hkey, rfl⟩

end Collect

end Action

end Framework
