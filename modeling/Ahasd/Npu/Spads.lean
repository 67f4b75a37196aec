/-
  File:      Ahasd/Npu/Spads.lean
  Subject:   THE SCRATCHPADS OF A CORE, as one table, and what the fills still to come say of it.

  * `entry`, `Put`: the entry of a slot, and a core after an entry was put; `put_of_fill`,
    `put_of_countUp`, `put_of_prefetch`: no later proof unfolds the functions of the scratchpads;
  * `Covers`: no slot gets more fills than its entry waits for, and a valid entry waits for none;
    so a slot with a fill to come is not hit (`Covers.not_mem_of_hit`);
  * `Covers.fill`, `Covers.count`, `Covers.allocate`: what an entry that is put does to it.
-/
import Ahasd.Npu.Core
import Mathlib.Data.List.Perm.Basic

namespace Ahasd.Npu

namespace SystolicCore

variable {c c' : SystolicCore} {slot : SpadSlot} {e : SramEntry}

/-! ## 1. Entries -/

/-- The entry of a slot. -/
def entry (c : SystolicCore) (slot : SpadSlot) : Option SramEntry :=
  ((c.sram slot.accum).cacheTable slot.bufferId)[slot.address]?

theorem checkHit_eq : c.checkHit slot = (c.entry slot).any SramEntry.valid := rfl

theorem checkAllocated_eq : c.checkAllocated slot = (c.entry slot).isSome := rfl

/-- An entry was put into a scratchpad; but for the scratchpads the core is the same. -/
structure Put (slot : SpadSlot) (e : SramEntry) (c c' : SystolicCore) : Prop where
  entries : ∀ slot', c'.entry slot' = if slot' = slot then some e else c.entry slot'
  rest : ∃ spad accSpad, c' = { c with spad := spad, accSpad := accSpad }

theorem put_setSram {s : Sram}
    (hs : s.cacheTable = Function.update (c.sram slot.accum).cacheTable slot.bufferId
      (((c.sram slot.accum).cacheTable slot.bufferId).insert slot.address e)) :
    Put slot e c (c.setSram slot.accum s) where
  rest := ⟨_, _, rfl⟩
  entries slot' := by
    have hsram : (c.setSram slot.accum s).sram slot'.accum =
        if slot'.accum = slot.accum then s else c.sram slot'.accum := by
      unfold sram setSram
      cases slot'.accum <;> cases slot.accum <;> rfl
    unfold entry
    rw [hsram]
    by_cases haccum : slot'.accum = slot.accum
    swap
    · rw [if_neg haccum, if_neg (mt (congrArg SpadSlot.accum) haccum)]
    rw [if_pos haccum, hs]
    by_cases hbuffer : slot'.bufferId = slot.bufferId
    swap
    · rw [Function.update_of_ne hbuffer, if_neg (mt (congrArg SpadSlot.bufferId) hbuffer), haccum]
    rw [hbuffer, Function.update_self, OrderedMap.lookup_insert]
    by_cases haddress : slot'.address = slot.address
    · have heq : slot' = slot := by
        cases slot
        cases slot'
        simp_all
      rw [if_pos haddress, if_pos heq]
    · rw [if_neg haddress, if_neg (mt (congrArg SpadSlot.address) haddress), haccum]

theorem put_of_fill (h : c.fill slot = some c') :
    ∃ old, c.entry slot = some old ∧ 0 < old.remainReqCount ∧
      Put slot
        { old with
          remainReqCount := old.remainReqCount - 1
          valid := old.remainReqCount - 1 == 0 } c c' := by
  obtain ⟨s, hs, rfl⟩ := Option.map_eq_some_iff.mp h
  unfold Sram.fill at hs
  split at hs
  · cases hs
  · next old hold =>
      split at hs
      · next hpos =>
          cases hs
          exact ⟨old, hold, hpos.1, put_setSram rfl⟩
      · cases hs

theorem put_of_countUp (h : c.countUp slot = some c') :
    ∃ old, c.entry slot = some old ∧
      Put slot { old with remainReqCount := old.remainReqCount + 1, valid := false } c c' := by
  obtain ⟨s, hs, rfl⟩ := Option.map_eq_some_iff.mp h
  unfold Sram.countUp at hs
  split at hs
  · cases hs
  · next old hold =>
      cases hs
      exact ⟨old, hold, put_setSram rfl⟩

theorem put_of_prefetch {size count : Nat} (h : c.prefetch slot size count = some c') :
    c.entry slot = none ∧ Put slot ⟨false, size, count⟩ c c' := by
  obtain ⟨s, hs, rfl⟩ := Option.map_eq_some_iff.mp h
  unfold Sram.prefetch at hs
  split at hs
  · cases hs
  · next hfree =>
      split at hs
      · cases hs
        exact ⟨Option.not_isSome_iff_eq_none.mp hfree, put_setSram rfl⟩
      · cases hs

/-! ## 2. Fills to come -/

/-- **No slot gets more fills than its entry waits for**, and a valid entry waits for none.
    `pending` has each slot once for each fill to come. -/
structure Covers (c : SystolicCore) (pending : List SpadSlot) : Prop where
  waits : ∀ slot, pending.count slot ≤ ((c.entry slot).map SramEntry.remainReqCount).getD 0
  valid : ∀ slot e, c.entry slot = some e → e.valid = true → e.remainReqCount = 0

variable {pending pending' : List SpadSlot}

/-- Only the entries matter, and how often a slot is pending. -/
theorem Covers.congr (h : c.Covers pending) (he : c'.entry = c.entry)
    (hp : pending'.Perm pending) : c'.Covers pending' where
  waits slot := by
    rw [he, hp.count_eq]
    exact h.waits slot
  valid slot e := by
    rw [he]
    exact h.valid slot e

/-- **A slot with a fill to come is not hit.** -/
theorem Covers.not_mem_of_hit (h : c.Covers pending) (hhit : c.checkHit slot = true) :
    slot ∉ pending := by
  rw [checkHit_eq, Option.any_eq_true] at hhit
  obtain ⟨e, he, hvalid⟩ := hhit
  have hle := h.waits slot
  rw [he, Option.map_some, Option.getD_some, h.valid slot e he hvalid] at hle
  exact List.count_eq_zero.mp (Nat.le_zero.mp hle)

/-- A slot that is not allocated has no fill to come. -/
theorem Covers.not_mem_of_free (h : c.Covers pending) (hfree : c.entry slot = none) :
    slot ∉ pending := by
  have hle := h.waits slot
  rw [hfree] at hle
  exact List.count_eq_zero.mp (Nat.le_zero.mp hle)

/-- An entry is put that waits for the fills of its slot. -/
theorem Covers.put (h : c.Covers pending) (hput : Put slot e c c')
    (hother : ∀ slot', slot' ≠ slot → pending'.count slot' = pending.count slot')
    (hslot : pending'.count slot ≤ e.remainReqCount)
    (hvalid : e.valid = true → e.remainReqCount = 0) : c'.Covers pending' where
  waits slot' := by
    rw [hput.entries]
    split
    · next heq =>
        rw [heq]
        exact hslot
    · next hne =>
        rw [hother slot' hne]
        exact h.waits slot'
  valid slot' e' he := by
    rw [hput.entries] at he
    split at he
    · cases he
      exact hvalid
    · exact h.valid slot' e' he

/-- A slot is filled. -/
theorem Covers.fill (h : c.Covers (slot :: pending)) (hfill : c.fill slot = some c') :
    c'.Covers pending := by
  obtain ⟨old, hold, hpos, hput⟩ := put_of_fill hfill
  refine h.put hput (fun slot' hne => ?_) ?_ fun hvalid => by simpa using hvalid
  · rw [List.count_cons_of_ne (Ne.symm hne)]
  · have hle := h.waits slot
    rw [hold, List.count_cons_self, Option.map_some, Option.getD_some] at hle
    exact Nat.le_sub_one_of_lt hle

/-- A computation into a slot that is allocated. -/
theorem Covers.count (h : c.Covers pending) (hcount : c.countUp slot = some c') :
    c'.Covers (slot :: pending) := by
  obtain ⟨old, hold, hput⟩ := put_of_countUp hcount
  refine h.put hput (fun slot' hne => ?_) ?_ fun hvalid => Bool.noConfusion hvalid
  · rw [List.count_cons_of_ne (Ne.symm hne)]
  · have hle := h.waits slot
    rw [hold] at hle
    rw [List.count_cons_self]
    exact Nat.succ_le_succ hle

/-- A slot is allocated, for some fills. -/
theorem Covers.allocate (h : c.Covers pending) {size count n : Nat}
    (hprefetch : c.prefetch slot size count = some c') (hn : n ≤ count) :
    c'.Covers (List.replicate n slot ++ pending) := by
  obtain ⟨hfree, hput⟩ := put_of_prefetch hprefetch
  refine h.put hput (fun slot' hne => ?_) ?_ fun hvalid => Bool.noConfusion hvalid
  · rw [List.count_append, List.count_replicate, if_neg (by simpa using Ne.symm hne), Nat.zero_add]
  · rw [List.count_append, List.count_replicate_self,
      List.count_eq_zero.mpr (h.not_mem_of_free hfree)]
    exact hn

end SystolicCore

end Ahasd.Npu
