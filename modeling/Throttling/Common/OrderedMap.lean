import Mathlib.Data.Finset.Basic
import Mathlib.Data.List.Sort
import Std.Data.ExtTreeMap
/-!
# Ordered maps and sets, and loops over them

A `std::map` is an `ExtTreeMap` on the keys' own order, a `std::set` a
`Finset`. This file states the map's lookups with the key test as an
equation, and says what a loop leaves that visits each key of a list or
of a map once and changes the entry of the key it visits.
-/

/-- A finite map with its keys in their order. -/
abbrev OrderedMap (κ β : Type) [Ord κ] : Type := Std.ExtTreeMap κ β compare

namespace OrderedMap

variable {κ β γ : Type} [Ord κ] [Std.TransOrd κ] [Std.LawfulEqOrd κ] [DecidableEq κ]

/-! ## Lookups -/

theorem lookup_insert (t : OrderedMap κ β) (k a : κ) (v : β) :
    (t.insert k v)[a]? = if k = a then some v else t[a]? := by
  simp [Std.ExtTreeMap.getElem?_insert]

theorem lookup_erase (t : OrderedMap κ β) (k a : κ) :
    (t.erase k)[a]? = if k = a then none else t[a]? := by
  simp [Std.ExtTreeMap.getElem?_erase]

theorem lookup_alter (t : OrderedMap κ β) (k a : κ) (f : Option β → Option β) :
    (t.alter k f)[a]? = if k = a then f t[k]? else t[a]? := by
  simp [Std.ExtTreeMap.getElem?_alter]

omit [Std.LawfulEqOrd κ] [DecidableEq κ] in
theorem mem_iff_exists {t : OrderedMap κ β} {k : κ} : k ∈ t ↔ ∃ v, t[k]? = some v := by
  rw [Std.ExtTreeMap.mem_iff_isSome_getElem?, Option.isSome_iff_exists]

omit [Std.LawfulEqOrd κ] [DecidableEq κ] in
theorem not_mem_iff {t : OrderedMap κ β} {k : κ} : k ∉ t ↔ t[k]? = none := by
  rw [Std.ExtTreeMap.mem_iff_isSome_getElem?, Option.not_isSome_iff_eq_none]

omit [DecidableEq κ] in
/-- Inserting the first of some keys to come leaves the same ones, come or
to come. -/
theorem mem_or_mem_insert {t : OrderedMap κ β} {l : List κ} {k a : κ} {v : β} :
    a ∈ l ∨ a ∈ t.insert k v ↔ a ∈ k :: l ∨ a ∈ t := by
  rw [Std.ExtTreeMap.mem_insert, Std.LawfulEqOrd.compare_eq_iff_eq, List.mem_cons, or_left_comm,
    or_assoc, eq_comm]

/-! ## Loops -/

/-- **A loop that changes the entry of each key it visits** leaves every
other entry alone. -/
theorem lookup_foldl_alter (f : κ → Option β → Option β) (k : κ) :
    ∀ (l : List κ) (t : OrderedMap κ β), l.Nodup →
      (l.foldl (fun t x => t.alter x (f x)) t)[k]? = if k ∈ l then f k t[k]? else t[k]? := by
  intro l
  induction l with
  | nil => intro t _; simp
  | cons x xs ih =>
    intro t hnd
    -- `x` does not come again, so what follows leaves its entry
    obtain ⟨hx, hxs⟩ := List.nodup_cons.mp hnd
    rw [List.foldl_cons, ih _ hxs, lookup_alter]
    by_cases hk : x = k
    · subst hk
      simp [hx]
    · simp [hk, Ne.symm hk]

/-- A loop that inserts a value for each key of a list. -/
theorem lookup_foldl_insert (f : κ → β) (k : κ) :
    ∀ (l : List κ) (t : OrderedMap κ β),
      (l.foldl (fun t x => t.insert x (f x)) t)[k]? = if k ∈ l then some (f k) else t[k]? := by
  intro l
  induction l with
  | nil => intro t; simp
  | cons x xs ih =>
    intro t
    rw [List.foldl_cons, ih, lookup_insert]
    by_cases hk : x = k
    · subst hk; simp
    · simp [hk, Ne.symm hk]

/-- A loop that erases the keys failing a test. -/
theorem lookup_foldl_erase (p : κ → Prop) [DecidablePred p] (k : κ) :
    ∀ (l : List κ) (t : OrderedMap κ β),
      (l.foldl (fun t x => if p x then t else t.erase x) t)[k]? =
        if k ∈ l ∧ ¬ p k then none else t[k]? := by
  intro l
  induction l with
  | nil => intro t; simp
  | cons x xs ih =>
    intro t
    rw [List.foldl_cons, ih]
    by_cases hp : p x
    · rw [if_pos hp]
      have hk : k ∈ x :: xs ∧ ¬ p k ↔ k ∈ xs ∧ ¬ p k := by
        rw [List.mem_cons]
        constructor
        · rintro ⟨rfl | hmem, hpk⟩
          · exact absurd hp hpk
          · exact ⟨hmem, hpk⟩
        · exact fun h => ⟨Or.inr h.1, h.2⟩
      simp only [hk]
    · rw [if_neg hp, lookup_erase]
      by_cases hk : x = k
      · subst hk
        simp [hp]
      · simp [hk, Ne.symm hk]

/-- **A loop over the entries of one map** that changes, at each key, the
other map's entry of that key. -/
theorem lookup_foldl_map (m : OrderedMap κ γ) (f : κ → γ → Option β → Option β)
    (t : OrderedMap κ β) (k : κ) :
    (m.foldl (fun t x v => t.alter x (f x v)) t)[k]? =
      match m[k]? with
      | some v => f k v t[k]?
      | none => t[k]? := by
  -- over the entries as a list of distinct keys, at most one of which is `k`
  have key : ∀ (l : List (κ × γ)) (t : OrderedMap κ β),
      l.Pairwise (fun a b => a.1 ≠ b.1) →
      (∀ v, (k, v) ∈ l →
        (l.foldl (fun t p => t.alter p.1 (f p.1 p.2)) t)[k]? = f k v t[k]?) ∧
      ((∀ v, (k, v) ∉ l) → (l.foldl (fun t p => t.alter p.1 (f p.1 p.2)) t)[k]? = t[k]?) := by
    intro l
    induction l with
    | nil => intro t _; simp
    | cons p ps ih =>
      intro t hdis
      obtain ⟨hp, hps⟩ := List.pairwise_cons.mp hdis
      obtain ⟨ih₁, ih₂⟩ := ih (t.alter p.1 (f p.1 p.2)) hps
      rw [List.foldl_cons]
      refine ⟨fun v hv => ?_, fun hnot => ?_⟩
      · rcases List.mem_cons.mp hv with rfl | hv
        · rw [ih₂ fun v' hv' => hp _ hv' rfl, lookup_alter, if_pos rfl]
        · rw [ih₁ v hv, lookup_alter, if_neg (hp _ hv)]
      · have hk : p.1 ≠ k := fun h => hnot p.2 (by rw [← h]; exact List.mem_cons_self)
        rw [ih₂ fun v hv => hnot v (List.mem_cons_of_mem _ hv), lookup_alter, if_neg hk]
  rw [Std.ExtTreeMap.foldl_eq_foldl_toList]
  have hdis : m.toList.Pairwise (fun a b => a.1 ≠ b.1) :=
    m.distinct_keys_toList.imp fun h heq => h (by rw [heq]; exact Std.ReflCmp.compare_self)
  obtain ⟨hmem, hnot⟩ := key m.toList t hdis
  cases hk : m[k]? with
  | some v => exact hmem v (Std.ExtTreeMap.mem_toList_iff_getElem?_eq_some.mpr hk)
  | none =>
    refine hnot fun v hv => ?_
    rw [Std.ExtTreeMap.mem_toList_iff_getElem?_eq_some, hk] at hv
    cases hv

end OrderedMap

/-! ## Sets in their order -/

namespace Finset

variable {α : Type} [LinearOrder α]

/-- The elements of a set in ascending order, by insertion so that closed
instances evaluate. -/
def ascending (s : Finset α) : List α :=
  Quot.liftOn s.val (fun l => l.insertionSort (· ≤ ·)) fun a b h =>
    List.Perm.eq_of_pairwise (fun _ _ _ _ => le_antisymm)
      (List.pairwise_insertionSort (· ≤ ·) a) (List.pairwise_insertionSort (· ≤ ·) b)
      (((List.perm_insertionSort (· ≤ ·) a).trans h).trans
        (List.perm_insertionSort (· ≤ ·) b).symm)

theorem coe_ascending (s : Finset α) : (s.ascending : Multiset α) = s.val := by
  obtain ⟨⟨l⟩, hl⟩ := s
  exact Quot.sound (List.perm_insertionSort (· ≤ ·) l)

@[simp] theorem mem_ascending {s : Finset α} {a : α} : a ∈ s.ascending ↔ a ∈ s := by
  rw [← Multiset.mem_coe, coe_ascending, Finset.mem_val]

theorem nodup_ascending (s : Finset α) : s.ascending.Nodup := by
  rw [← Multiset.coe_nodup, coe_ascending]
  exact s.nodup

end Finset
