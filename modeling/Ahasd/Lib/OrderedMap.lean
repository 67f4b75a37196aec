/-
  File:      Ahasd/Lib/OrderedMap.lean
  Subject:   LOOKUPS AND SUMS OF ORDERED MAPS. A library file: it names nothing of the program.

  `Std.TreeMap` is the ordered map of the developments that use this file.

  * `lookup_insert`, `lookup_erase`, `lookup_modify`: a lookup after an operation, as one equation
    over the keys (not over their comparison);
  * `sumBy`: the sum of a function over the entries, and what it does when one entry is inserted
    (`sumBy_insert_new`), replaced (`sumBy_replace`) or erased (`sumBy_erase`); `sumBy_set`: all of
    these as one equation;
  * `KeysWithin`, `size_le_of_keysWithin`: the size depends on the keys only.
-/
import Mathlib.Algebra.BigOperators.Group.List.Basic
import Mathlib.Algebra.GroupWithZero.Nat
import Mathlib.Data.List.Perm.Subperm

namespace OrderedMap

open Std

variable {κ ν : Type} {cmp : κ → κ → Ordering}

/-! ## 1. Lookups -/

section Operations

variable [TransCmp cmp] [LawfulEqCmp cmp] [DecidableEq κ]

omit [TransCmp cmp] [DecidableEq κ] in
/-- Two keys compare equal only when they are equal. -/
theorem compare_eq_iff (k k' : κ) : cmp k k' = .eq ↔ k' = k :=
  LawfulEqCmp.compare_eq_iff_eq.trans eq_comm

theorem lookup_insert (t : TreeMap κ ν cmp) (k k' : κ) (v : ν) :
    (t.insert k v)[k']? = if k' = k then some v else t[k']? := by
  rw [TreeMap.getElem?_insert]
  simp only [compare_eq_iff]

theorem lookup_erase (t : TreeMap κ ν cmp) (k k' : κ) :
    (t.erase k)[k']? = if k' = k then none else t[k']? := by
  rw [TreeMap.getElem?_erase]
  simp only [compare_eq_iff]

theorem lookup_modify (t : TreeMap κ ν cmp) (k k' : κ) (f : ν → ν) :
    (t.modify k f)[k']? = if k' = k then t[k']?.map f else t[k']? := by
  rw [TreeMap.getElem?_modify]
  simp only [compare_eq_iff]
  split
  · next h => rw [h]
  · rfl

omit [LawfulEqCmp cmp] [DecidableEq κ] in
theorem lookup_empty (k : κ) : (∅ : TreeMap κ ν cmp)[k]? = none :=
  TreeMap.getElem?_emptyc

end Operations

/-! ## 2. Sums -/

/-- The sum of `f` over the entries of a map. -/
def sumBy (t : TreeMap κ ν cmp) (f : κ → ν → Nat) : Nat :=
  (t.toList.map fun e => f e.1 e.2).sum

section Lookup

variable [TransCmp cmp] [LawfulEqCmp cmp]

/-- **The sum depends on the lookups only.** -/
theorem sumBy_congr {t₁ t₂ : TreeMap κ ν cmp} (f : κ → ν → Nat) (h : ∀ k : κ, t₁[k]? = t₂[k]?) :
    sumBy t₁ f = sumBy t₂ f := by
  unfold sumBy
  rw [(TreeMap.Equiv.of_forall_constGet?_eq h).toList_eq]

/-- Two summands that agree on the entries have the same sum. -/
theorem sumBy_congr_fun {t : TreeMap κ ν cmp} {f g : κ → ν → Nat}
    (h : ∀ k v, t[k]? = some v → f k v = g k v) : sumBy t f = sumBy t g := by
  unfold sumBy
  refine congrArg List.sum (List.map_congr_left fun e he => ?_)
  exact h e.1 e.2 (TreeMap.mem_toList_iff_getElem?_eq_some.mp he)

/-- A new entry adds its summand. -/
theorem sumBy_insert_new {t : TreeMap κ ν cmp} {k : κ} (f : κ → ν → Nat) (v : ν)
    (h : t[k]? = none) : sumBy (t.insert k v) f = f k v + sumBy t f := by
  classical
  let _ : DecidableEq κ := Classical.decEq κ
  have hp := (TreeMap.toList_insert_perm (t := t) (k := k) (v := v)).map fun e => f e.1 e.2
  have hfilter : t.toList.filter (fun e => decide ¬(k == e.1) = true) = t.toList := by
    refine List.filter_eq_self.mpr fun e he => decide_eq_true fun hk => ?_
    have hke : k = e.1 := eq_of_beq hk
    have he' := TreeMap.mem_toList_iff_getElem?_eq_some.mp he
    rw [← hke, h] at he'
    cases he'
  unfold sumBy
  rw [hp.sum_eq, hfilter, List.map_cons, List.sum_cons]

/-- Erasing an entry takes its summand away. -/
theorem sumBy_erase {t : TreeMap κ ν cmp} {k : κ} {v : ν} (f : κ → ν → Nat)
    (h : t[k]? = some v) : sumBy (t.erase k) f + f k v = sumBy t f := by
  have hnone : (t.erase k)[k]? = none := by
    rw [TreeMap.getElem?_erase, if_pos ReflCmp.compare_self]
  have hback : ∀ k' : κ, ((t.erase k).insert k v)[k']? = t[k']? := by
    intro k'
    rw [TreeMap.getElem?_insert, TreeMap.getElem?_erase]
    by_cases hk : cmp k k' = .eq
    · rw [if_pos hk, ← LawfulEqCmp.eq_of_compare hk, h]
    · rw [if_neg hk, if_neg hk]
  rw [← sumBy_congr f hback, sumBy_insert_new f v hnone, Nat.add_comm]

/-- Replacing an entry exchanges its summand. -/
theorem sumBy_replace {t : TreeMap κ ν cmp} {k : κ} {v : ν} (f : κ → ν → Nat) (w : ν)
    (h : t[k]? = some v) : sumBy (t.insert k w) f + f k v = sumBy t f + f k w := by
  have hnone : (t.erase k)[k]? = none := by
    rw [TreeMap.getElem?_erase, if_pos ReflCmp.compare_self]
  have hsame : ∀ k' : κ, (t.insert k w)[k']? = ((t.erase k).insert k w)[k']? := by
    intro k'
    rw [TreeMap.getElem?_insert, TreeMap.getElem?_insert, TreeMap.getElem?_erase]
    by_cases hk : cmp k k' = .eq
    · rw [if_pos hk, if_pos hk]
    · rw [if_neg hk, if_neg hk, if_neg hk]
  have herase := sumBy_erase f h
  rw [sumBy_congr f hsame, sumBy_insert_new f w hnone]
  omega

/-- **One entry set**, to a value or to none: the sum exchanges its summand. -/
theorem sumBy_set [DecidableEq κ] {t t' : TreeMap κ ν cmp} {k : κ} {o o' : Option ν}
    (f : κ → ν → Nat) (h : t[k]? = o) (h' : ∀ k' : κ, t'[k']? = if k' = k then o' else t[k']?) :
    sumBy t' f + (o.map (f k)).getD 0 = sumBy t f + (o'.map (f k)).getD 0 := by
  have hset : ∀ (u : TreeMap κ ν cmp), (∀ k' : κ, u[k']? = if k' = k then o' else t[k']?) →
      sumBy t' f = sumBy u f := fun u hu => sumBy_congr f fun k' => (h' k').trans (hu k').symm
  cases o' with
  | none =>
      rw [hset (t.erase k) (lookup_erase t k)]
      cases o with
      | none =>
          have hsame : ∀ k' : κ, (t.erase k)[k']? = t[k']? := by
            intro k'
            rw [lookup_erase]
            split
            · next heq => rw [heq, h]
            · rfl
          rw [sumBy_congr f hsame]
      | some v => exact sumBy_erase f h
  | some w =>
      rw [hset (t.insert k w) fun k' => lookup_insert t k k' w]
      cases o with
      | none =>
          rw [sumBy_insert_new f w h, Option.map_none, Option.map_some, Option.getD_some,
            Option.getD_none, Nat.add_zero, Nat.add_comm]
      | some v => exact sumBy_replace f w h

end Lookup

/-- Summands that vanish on the entries have sum 0. -/
theorem sumBy_eq_zero [TransCmp cmp] [LawfulEqCmp cmp] {t : TreeMap κ ν cmp} {f : κ → ν → Nat}
    (h : ∀ k v, t[k]? = some v → f k v = 0) : sumBy t f = 0 := by
  refine List.sum_eq_zero fun n hn => ?_
  obtain ⟨e, he, rfl⟩ := List.mem_map.mp hn
  exact h e.1 e.2 (TreeMap.mem_toList_iff_getElem?_eq_some.mp he)

theorem sumBy_empty (f : κ → ν → Nat) : sumBy (∅ : TreeMap κ ν cmp) f = 0 := by
  rfl

/-! ## 3. Keys -/

section Keys

variable {μ ρ : Type} [TransCmp cmp] [LawfulEqCmp cmp]

/-- Every key of the first map is a key of the second. -/
def KeysWithin (t : TreeMap κ ν cmp) (t' : TreeMap κ μ cmp) : Prop :=
  ∀ k : κ, t[k]?.isSome = true → t'[k]?.isSome = true

omit [TransCmp cmp] [LawfulEqCmp cmp] in
theorem KeysWithin.refl (t : TreeMap κ ν cmp) : KeysWithin t t := fun _ h => h

omit [TransCmp cmp] [LawfulEqCmp cmp] in
theorem KeysWithin.trans {t : TreeMap κ ν cmp} {t' : TreeMap κ μ cmp} {t'' : TreeMap κ ρ cmp}
    (h : KeysWithin t t') (h' : KeysWithin t' t'') : KeysWithin t t'' :=
  fun k hk => h' k (h k hk)

/-- **A map whose keys are among those of another is no larger.** -/
theorem size_le_of_keysWithin {t : TreeMap κ ν cmp} {t' : TreeMap κ μ cmp}
    (h : KeysWithin t t') : t.size ≤ t'.size := by
  rw [← TreeMap.length_keys, ← TreeMap.length_keys]
  refine List.Subperm.length_le (List.subperm_of_subset TreeMap.nodup_keys fun k hk => ?_)
  rw [TreeMap.mem_keys, TreeMap.mem_iff_isSome_getElem?] at hk ⊢
  exact h k hk

/-- Setting an entry that is there already keeps the keys. -/
theorem keysWithin_insert_old [DecidableEq κ] {t : TreeMap κ ν cmp} {k : κ} {v : ν}
    (h : t[k]?.isSome = true) : KeysWithin (t.insert k v) t ∧ KeysWithin t (t.insert k v) := by
  refine ⟨fun k' hk' => ?_, fun k' hk' => ?_⟩
  · rw [lookup_insert] at hk'
    split at hk'
    · next heq => rw [heq]; exact h
    · exact hk'
  · rw [lookup_insert]
    split
    · rfl
    · exact hk'

omit [LawfulEqCmp cmp] in
/-- A new entry makes the map larger by one. -/
theorem size_insert_new {t : TreeMap κ ν cmp} {k : κ} (v : ν) (h : t[k]? = none) :
    (t.insert k v).size = t.size + 1 := by
  rw [TreeMap.size_insert, if_neg]
  rw [TreeMap.contains_eq_isSome_getElem?, h]
  exact Bool.false_ne_true

omit [LawfulEqCmp cmp] in
/-- Erasing an entry makes the map smaller by one. -/
theorem size_erase_old {t : TreeMap κ ν cmp} {k : κ} {v : ν} (h : t[k]? = some v) :
    (t.erase k).size + 1 = t.size := by
  have hmem : t.contains k = true := by
    rw [TreeMap.contains_eq_isSome_getElem?, h]
    rfl
  have hpos : 0 < t.size := by
    rw [Nat.pos_iff_ne_zero]
    intro hzero
    have hnot := TreeMap.isEmpty_eq_false_of_contains hmem
    rw [TreeMap.isEmpty_eq_size_eq_zero, hzero] at hnot
    cases hnot
  rw [TreeMap.size_erase, if_pos hmem]
  omega

end Keys

end OrderedMap
