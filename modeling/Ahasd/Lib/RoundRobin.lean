/-
  File:      Ahasd/Lib/RoundRobin.lean
  Subject:   ROUND-ROBIN ARBITRATION. A library file: it names nothing of the program.

  * `turns n start`: the nodes `start`, `start + 1`, … around the circle, each once;
  * `distance n start node`: how many times `start` moves on until it is `node`;
  * `grants`: the nodes are asked in order; a node that wants a destination gets it if it is free;
  * **`grants_matching`**: the grants are a MAXIMAL MATCHING of the wishes with the free
    destinations, and `grants_first`: the first node asked gets what it wants if it is free.
-/
import Mathlib.Data.List.Nodup
import Mathlib.Data.List.Range
import Mathlib.Data.Nat.ModEq
import Mathlib.Logic.Function.Basic

namespace RoundRobin

/-! ## 1. The turns -/

/-- The nodes in turn, from `start` on. -/
def turns (n start : Nat) : List Nat := (List.range n).map fun i => (start + i) % n

theorem nodup_turns (n start : Nat) : (turns n start).Nodup := by
  refine (List.nodup_map_iff_inj_on List.nodup_range).mpr ?_
  intro i hi j hj h
  have hmod : i ≡ j [MOD n] := Nat.ModEq.add_left_cancel' start h
  exact hmod.eq_of_lt_of_lt (List.mem_range.mp hi) (List.mem_range.mp hj)

theorem mem_turns {n start node : Nat} : node ∈ turns n start ↔ node < n := by
  constructor
  · intro h
    obtain ⟨i, hi, rfl⟩ := List.mem_map.mp h
    exact Nat.mod_lt _ (Nat.zero_lt_of_lt (List.mem_range.mp hi))
  · intro h
    have hn : 0 < n := Nat.zero_lt_of_lt h
    have hs : start % n < n := Nat.mod_lt _ hn
    refine List.mem_map.mpr ⟨(node + (n - start % n)) % n,
      List.mem_range.mpr (Nat.mod_lt _ hn), ?_⟩
    calc (start + (node + (n - start % n)) % n) % n
        = (start % n + (node + (n - start % n))) % n := by simp [Nat.add_mod]
      _ = (node + n) % n := by congr 1; omega
      _ = node := by rw [Nat.add_mod_right, Nat.mod_eq_of_lt h]

/-- Only the place on the circle counts. -/
theorem turns_mod (n start : Nat) : turns n (start % n) = turns n start := by
  refine List.map_congr_left fun i _ => ?_
  rw [Nat.mod_add_mod]

/-- The turns begin at `start`. -/
theorem turns_cons {n start : Nat} (h : start < n) : ∃ rest, turns n start = start :: rest := by
  obtain ⟨m, rfl⟩ : ∃ m, n = m + 1 := ⟨n - 1, by omega⟩
  refine ⟨(List.range m).map fun i => (start + (i + 1)) % (m + 1), ?_⟩
  rw [turns, List.range_succ_eq_map, List.map_cons, List.map_map, Nat.add_zero,
    Nat.mod_eq_of_lt h]
  rfl

/-- How many times `start` moves on until it is `node`. -/
def distance (n start node : Nat) : Nat := if start ≤ node then node - start else node + n - start

theorem distance_lt (start : Nat) {n node : Nat} (h : node < n) : distance n start node < n := by
  unfold distance
  split <;> omega

/-- Moving on brings every other node nearer. -/
theorem distance_next {n start node : Nat} (hs : start < n) (hn : node < n) (hne : start ≠ node) :
    distance n ((start + 1) % n) node + 1 = distance n start node := by
  rcases Nat.lt_or_ge (start + 1) n with h | h
  · rw [Nat.mod_eq_of_lt h]
    unfold distance
    split <;> split <;> omega
  · have heq : start + 1 = n := by omega
    rw [heq, Nat.mod_self]
    unfold distance
    split <;> split <;> omega

/-! ## 2. The grants -/

section Grants

variable {ι δ : Type} [DecidableEq δ] (wants : ι → Option δ)

/-- One pass over the nodes. -/
def grants : List ι → (δ → Bool) → List (ι × δ)
  | [], _ => []
  | i :: is, busy =>
      match wants i with
      | none => grants is busy
      | some d =>
          if busy d then grants is busy
          else (i, d) :: grants is (Function.update busy d true)

theorem grants_cons_still {i : ι} {is : List ι} {busy : δ → Bool}
    (h : ∀ d, wants i = some d → busy d = true) :
    grants wants (i :: is) busy = grants wants is busy := by
  simp only [grants]
  split
  · rfl
  · next d hw => rw [if_pos (h d hw)]

theorem grants_cons_granted {i : ι} {is : List ι} {busy : δ → Bool} {d : δ} (hw : wants i = some d)
    (hfree : busy d = false) :
    grants wants (i :: is) busy = (i, d) :: grants wants is (Function.update busy d true) := by
  simp only [grants, hw, hfree, Bool.false_eq_true, if_false]

/-- The grants are a maximal matching of the wishes with the free destinations. -/
structure Matching (is : List ι) (busy : δ → Bool) (g : List (ι × δ)) : Prop where
  wanted : ∀ p ∈ g, wants p.1 = some p.2
  free : ∀ p ∈ g, busy p.2 = false
  sources : (g.map Prod.fst).Sublist is
  dests : (g.map Prod.snd).Nodup
  maximal : ∀ i ∈ is, ∀ d, wants i = some d → busy d = true ∨ d ∈ g.map Prod.snd

theorem grants_matching : ∀ (is : List ι) (busy : δ → Bool),
    Matching wants is busy (grants wants is busy) := by
  intro is
  induction is with
  | nil =>
      intro busy
      exact ⟨by simp [grants], by simp [grants], by simp [grants], by simp [grants],
        fun i hi => nomatch hi⟩
  | cons i is ih =>
      intro busy
      by_cases hstill : ∀ d, wants i = some d → busy d = true
      · rw [grants_cons_still wants hstill]
        obtain ⟨h1, h2, h3, h4, h5⟩ := ih busy
        refine ⟨h1, h2, h3.trans (List.sublist_cons_self i is), h4, ?_⟩
        intro j hj d hd
        rcases List.mem_cons.mp hj with rfl | hj
        · exact .inl (hstill d hd)
        · exact h5 j hj d hd
      · obtain ⟨d, hw, hb⟩ : ∃ d, wants i = some d ∧ busy d = false := by simpa using hstill
        rw [grants_cons_granted wants hw hb]
        obtain ⟨h1, h2, h3, h4, h5⟩ := ih (Function.update busy d true)
        -- what is granted later is not `d`
        have hlater : ∀ p ∈ grants wants is (Function.update busy d true),
            p.2 ≠ d ∧ busy p.2 = false := by
          intro p hp
          have hf := h2 p hp
          by_cases hpd : p.2 = d
          · rw [hpd, Function.update_self] at hf
            cases hf
          · rw [Function.update_of_ne hpd] at hf
            exact ⟨hpd, hf⟩
        refine ⟨?_, ?_, h3.cons_cons i, ?_, ?_⟩
        · intro p hp
          rcases List.mem_cons.mp hp with rfl | hp
          · exact hw
          · exact h1 p hp
        · intro p hp
          rcases List.mem_cons.mp hp with rfl | hp
          · exact hb
          · exact (hlater p hp).2
        · refine List.nodup_cons.mpr ⟨?_, h4⟩
          intro hd
          obtain ⟨p, hp, hpd⟩ := List.mem_map.mp hd
          exact (hlater p hp).1 hpd
        · intro j hj d' hd
          rcases List.mem_cons.mp hj with rfl | hj
          · obtain rfl := Option.some.inj (hw.symm.trans hd)
            exact .inr List.mem_cons_self
          · rcases h5 j hj d' hd with hbusy | hm
            · by_cases hdd : d' = d
              · exact .inr (hdd ▸ List.mem_cons_self)
              · rw [Function.update_of_ne hdd] at hbusy
                exact .inl hbusy
            · exact .inr (List.mem_cons_of_mem _ hm)

/-- Only the wishes of the nodes asked count. -/
theorem grants_congr {wants wants' : ι → Option δ} : ∀ {is : List ι} {busy : δ → Bool},
    (∀ i ∈ is, wants' i = wants i) → grants wants' is busy = grants wants is busy := by
  intro is
  induction is with
  | nil => exact fun _ => rfl
  | cons i is ih =>
      intro busy h
      have hrest : ∀ j ∈ is, wants' j = wants j := fun j hj => h j (List.mem_cons_of_mem i hj)
      simp only [grants, h i List.mem_cons_self, ih hrest]

/-- The first node asked gets what it wants, if it is free. -/
theorem grants_first {i : ι} {is : List ι} {busy : δ → Bool} {d : δ} (hw : wants i = some d)
    (hb : busy d = false) : (i, d) ∈ grants wants (i :: is) busy := by
  rw [grants_cons_granted wants hw hb]
  exact List.mem_cons_self

end Grants

end RoundRobin
