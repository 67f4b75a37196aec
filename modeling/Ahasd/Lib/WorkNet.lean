/-
  File:      Ahasd/Lib/WorkNet.lean
  Subject:   WORK THAT WAITS FOR WORK. A library file: it names nothing of the program.

  Nodes need resources and give resources; some resources are given at the start. A worker takes
  nodes from a list of ready ones, one at a time, and when one is done it adds those that have
  become ready.

  * `WorkNet`, `Ordered`: the net; every resource has one source, and no node waits for itself;
  * `Ready`: the list has exactly the nodes that may be taken; `start`, `finish` keep that;
  * **`Ready.all_done`**: with nothing taken and an empty list, everything is done;
  * `ReadyOrder`: an order in which every node finds what it needs.
-/
import Mathlib.Data.List.Basic
import Mathlib.Data.List.Nodup

/-- Nodes that need resources and give resources. -/
structure WorkNet (ν ρ : Type) where
  nodes : List ν
  needs : ν → ρ → Prop
  gives : ν → ρ → Prop
  given : ρ → Prop

namespace WorkNet

variable {ν ρ : Type} (W : WorkNet ν ρ)

/-! ## 1. The net -/

/-- A resource is there once its source is done. -/
def Available (done : ν → Prop) (r : ρ) : Prop := W.given r ∨ ∃ p ∈ W.nodes, done p ∧ W.gives p r

/-- A node has all it needs. -/
def Enabled (done : ν → Prop) (n : ν) : Prop := ∀ r, W.needs n r → W.Available done r

/-- **Every resource has one source, and there is no circle.** -/
structure Ordered : Prop where
  single : ∀ p ∈ W.nodes, ∀ p' ∈ W.nodes, ∀ r, W.gives p r → W.gives p' r → p = p'
  made : ∀ p ∈ W.nodes, ∀ r, W.gives p r → ¬W.given r
  sourced : ∀ n ∈ W.nodes, ∀ r, W.needs n r → W.given r ∨ ∃ p ∈ W.nodes, W.gives p r
  ranked : ∃ rank : ν → ℕ, ∀ n ∈ W.nodes, ∀ p ∈ W.nodes, ∀ r, W.needs n r → W.gives p r →
    rank p < rank n

variable {W} {done : ν → Prop} {n p : ν} {ready ready' : List ν}

theorem Available.mono {done' : ν → Prop} (h : ∀ n, done n → done' n) {r : ρ}
    (ha : W.Available done r) : W.Available done' r :=
  ha.imp id fun ⟨q, hq, hdone, hgives⟩ => ⟨q, hq, h q hdone, hgives⟩

theorem Enabled.mono {done' : ν → Prop} (h : ∀ n, done n → done' n) (he : W.Enabled done n) :
    W.Enabled done' n :=
  fun r hr => (he r hr).mono h

/-! ## 2. The list of ready nodes -/

variable (W) in
/-- Some nodes are done, at most one is taken, and the list has the others that may be taken. -/
structure Ready (done : ν → Prop) (active : Option ν) (ready : List ν) : Prop where
  nodup : ready.Nodup
  mem_iff : ∀ n, n ∈ ready ↔
    n ∈ W.nodes ∧ ¬done n ∧ active ≠ some n ∧ W.Enabled done n
  legal : ∀ n, done n ∨ active = some n → n ∈ W.nodes ∧ W.Enabled done n
  apart : ∀ n, active = some n → ¬done n

theorem Ready.init (hnone : ∀ n, ¬done n) (hnodup : ready.Nodup)
    (hmem : ∀ n, n ∈ ready ↔ n ∈ W.nodes ∧ W.Enabled done n) : W.Ready done none ready where
  nodup := hnodup
  mem_iff n := by
    rw [hmem n]
    simp [hnone n]
  legal n h := h.elim (fun hd => absurd hd (hnone n)) nofun
  apart _ h := nomatch h

/-- The first ready node is taken. -/
theorem Ready.start (h : W.Ready done none (n :: ready)) : W.Ready done (some n) ready := by
  obtain ⟨hnot, hnodup⟩ := List.nodup_cons.mp h.nodup
  have hn := (h.mem_iff n).mp List.mem_cons_self
  refine ⟨hnodup, fun k => ?_, fun k hk => ?_, fun k hk => ?_⟩
  · have hk := h.mem_iff k
    rw [List.mem_cons] at hk
    constructor
    · intro hmem
      obtain ⟨hnode, hdone, -, hen⟩ := hk.mp (.inr hmem)
      refine ⟨hnode, hdone, fun heq => hnot ?_, hen⟩
      rw [Option.some.inj heq]
      exact hmem
    · rintro ⟨hnode, hdone, hne, hen⟩
      rcases hk.mpr ⟨hnode, hdone, Option.some_ne_none k ∘ Eq.symm, hen⟩ with rfl | hmem
      · exact absurd rfl hne
      · exact hmem
  · rcases hk with hk | hk
    · exact h.legal k (.inl hk)
    · cases hk
      exact ⟨hn.1, hn.2.2.2⟩
  · cases hk
    exact hn.2.1

/-- **The node taken is done**, and the nodes that wait for it and have all they need now are added:
    these are all that have become ready. -/
theorem Ready.finish (hW : W.Ordered) (h : W.Ready done (some p) ready) (hnodup : ready'.Nodup)
    (hmem : ∀ n, n ∈ ready' ↔ n ∈ ready ∨
      n ∈ W.nodes ∧ (∃ r, W.gives p r ∧ W.needs n r) ∧ W.Enabled (fun k => done k ∨ k = p) n) :
    W.Ready (fun k => done k ∨ k = p) none ready' := by
  have hp := h.legal p (.inr rfl)
  -- what waits for `p` was not enabled before
  have hwaits : ∀ n r, n ∈ W.nodes → W.gives p r → W.needs n r → ¬W.Enabled done n := by
    intro n r hn hgives hneeds hen
    rcases hen r hneeds with hgiven | ⟨q, hq, hdone, hgives'⟩
    · exact hW.made p hp.1 r hgives hgiven
    · rw [hW.single q hq p hp.1 r hgives' hgives] at hdone
      exact h.apart p rfl hdone
  refine ⟨hnodup, fun n => ?_, fun n hn => ?_, fun _ hn => nomatch hn⟩
  · rw [hmem n]
    constructor
    · rintro (hn | ⟨hnode, ⟨r, hgives, hneeds⟩, hen⟩)
      · obtain ⟨hnode, hdone, hne, hen⟩ := (h.mem_iff n).mp hn
        refine ⟨hnode, ?_, Option.some_ne_none n ∘ Eq.symm, hen.mono fun _ => .inl⟩
        rintro (hd | rfl)
        · exact hdone hd
        · exact hne rfl
      · refine ⟨hnode, ?_, Option.some_ne_none n ∘ Eq.symm, hen⟩
        rintro (hd | rfl)
        · exact hwaits n r hnode hgives hneeds (h.legal n (.inl hd)).2
        · exact hwaits n r hnode hgives hneeds hp.2
    · rintro ⟨hnode, hdone, -, hen⟩
      by_cases hold : W.Enabled done n
      · refine .inl ((h.mem_iff n).mpr ⟨hnode, fun hd => hdone (.inl hd), fun heq => ?_, hold⟩)
        exact hdone (.inr (Option.some.inj heq).symm)
      · -- what was missing comes from `p`
        refine .inr ⟨hnode, ?_, hen⟩
        obtain ⟨r, hr⟩ := not_forall.mp hold
        obtain ⟨hneeds, hnot⟩ := Classical.not_imp.mp hr
        rcases hen r hneeds with hgiven | ⟨q, hq, hd | rfl, hgives⟩
        · exact absurd (.inl hgiven) hnot
        · exact absurd (.inr ⟨q, hq, hd, hgives⟩) hnot
        · exact ⟨r, hgives, hneeds⟩
  · rcases hn with (hd | rfl) | hn
    · obtain ⟨hnode, hen⟩ := h.legal n (.inl hd)
      exact ⟨hnode, hen.mono fun _ => .inl⟩
    · exact ⟨hp.1, hp.2.mono fun _ => .inl⟩
    · cases hn

/-- **Nothing is left over**: with nothing taken and an empty list, everything is done. -/
theorem Ready.all_done (hW : W.Ordered) (h : W.Ready done none []) : ∀ n ∈ W.nodes, done n := by
  obtain ⟨rank, hrank⟩ := hW.ranked
  -- by the rank: what a node waits for is done
  have hall : ∀ k, ∀ n ∈ W.nodes, rank n = k → done n := by
    intro k
    induction k using Nat.strongRecOn with
    | ind k ih =>
        intro n hn hk
        by_contra hnot
        have hen : W.Enabled done n := by
          intro r hr
          rcases hW.sourced n hn r hr with hgiven | ⟨q, hq, hgives⟩
          · exact .inl hgiven
          · have hlt := hrank n hn q hq r hr hgives
            exact .inr ⟨q, hq, ih (rank q) (hk ▸ hlt) q hq rfl, hgives⟩
        have hmem := (h.mem_iff n).mpr ⟨hn, hnot, (fun heq => nomatch heq), hen⟩
        cases hmem
  exact fun n hn => hall (rank n) n hn rfl

/-! ## 3. Adding to the list -/

/-- Candidates that are wanted and not in the list yet, are added at its end. -/
def addMissing [DecidableEq ν] (wanted : ν → Bool) (candidates ready : List ν) : List ν :=
  candidates.foldl (fun ready n => if wanted n && !ready.contains n then ready ++ [n] else ready)
    ready

section AddMissing

variable [DecidableEq ν] {wanted : ν → Bool}

theorem mem_addMissing {candidates : List ν} : ∀ {ready : List ν},
    n ∈ addMissing wanted candidates ready ↔ n ∈ ready ∨ n ∈ candidates ∧ wanted n = true := by
  induction candidates with
  | nil => simp [addMissing]
  | cons c candidates ih =>
      intro ready
      rw [addMissing, List.foldl_cons]
      change n ∈ addMissing wanted candidates _ ↔ _
      rw [ih]
      split
      · next h =>
          simp only [Bool.and_eq_true] at h
          simp only [List.mem_append, List.mem_cons, List.not_mem_nil, or_false]
          constructor
          · rintro ((hr | rfl) | ⟨hc, hw⟩)
            · exact .inl hr
            · exact .inr ⟨.inl rfl, h.1⟩
            · exact .inr ⟨.inr hc, hw⟩
          · rintro (hr | ⟨rfl | hc, hw⟩)
            · exact .inl (.inl hr)
            · exact .inl (.inr rfl)
            · exact .inr ⟨hc, hw⟩
      · next h =>
          have hin : wanted c = true → c ∈ ready := by
            intro hw
            by_contra hnot
            exact h (by simp [hw, hnot])
          simp only [List.mem_cons]
          constructor
          · rintro (hr | ⟨hc, hw⟩)
            · exact .inl hr
            · exact .inr ⟨.inr hc, hw⟩
          · rintro (hr | ⟨rfl | hc, hw⟩)
            · exact .inl hr
            · exact .inl (hin hw)
            · exact .inr ⟨hc, hw⟩

theorem nodup_addMissing {candidates : List ν} : ∀ {ready : List ν}, ready.Nodup →
    (addMissing wanted candidates ready).Nodup := by
  induction candidates with
  | nil => exact fun h => h
  | cons c candidates ih =>
      intro ready h
      rw [addMissing, List.foldl_cons]
      refine ih ?_
      split
      · next hc =>
          simp only [Bool.and_eq_true, Bool.not_eq_true', List.contains_eq_mem,
            decide_eq_false_iff_not] at hc
          exact List.nodup_append.mpr ⟨h, List.nodup_singleton c, fun a ha b hb => by
            rw [List.mem_singleton.mp hb]
            exact fun heq => hc.2 (heq ▸ ha)⟩
      · exact h

end AddMissing

/-! ## 4. Orders -/

variable (W) in
/-- Every node of the list finds what it needs when its turn comes. -/
def ReadyOrder (order : List ν) : Prop :=
  ∀ before n after, order = before ++ n :: after → n ∈ W.nodes ∧ W.Enabled (· ∈ before) n

theorem readyOrder_nil : W.ReadyOrder [] := by
  intro before n after h
  simp at h

theorem ReadyOrder.snoc {order : List ν} (h : W.ReadyOrder order) (hn : n ∈ W.nodes)
    (he : W.Enabled (· ∈ order) n) : W.ReadyOrder (order ++ [n]) := by
  intro before k after heq
  rcases List.eq_nil_or_concat after with rfl | ⟨after, last, rfl⟩
  · obtain ⟨rfl, hkn⟩ := List.append_inj' heq rfl
    cases hkn
    exact ⟨hn, he⟩
  · rw [List.concat_eq_append, ← List.cons_append, ← List.append_assoc] at heq
    exact h before k after (List.append_inj' heq rfl).1

end WorkNet
