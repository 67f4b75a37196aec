/-
  File:      Ahasd/Npu/Loads.lean
  Subject:   THE LOADS THAT ARE ON THEIR WAY, of each core.

  * `loadSlots`: their slots;
  * `sameLoads_op`: of the parts of the interconnect cycle, only an answer changes them;
  * `loads_of_requestActs`: the requests of a core's cycle add theirs;
  * `loads_of_coreResponse`, `perm_of_find`: an answer takes one away.
-/
import Ahasd.Npu.Runs

namespace Ahasd.Npu

open Transition

/-! ## 1. The interconnect cycle -/

/-- The slots of the loads that are on their way. -/
def loadSlots (m : Simulator) (coreId : Nat) : List SpadSlot :=
  (m.cores coreId).loads.map Prod.fst

section Parts

open Simulator

/-- The loads of the cores stay. -/
def SameLoads (m : Simulator) (r : Simulator × List Transfer) : Prop :=
  ∀ coreId, (r.1.cores coreId).loads = (m.cores coreId).loads

theorem composes_sameLoads : Composes SameLoads where
  nothing _ _ := rfl
  trans h h' coreId := (h' coreId).trans (h coreId)

theorem sameLoads_coreRequest (full : MemoryAccess → Bool) (c : Nat) (m : Simulator) :
    SameLoads m (m.coreRequest full c) := by
  have hqueue : ∀ (t : Simulator) (q : List MemoryAccess) (coreId : Nat),
      ((t.updateCore c fun core => { core with requestQueue := q }).cores coreId).loads =
        (t.cores coreId).loads := by
    intro t q coreId
    unfold updateCore
    dsimp only
    rw [Function.update_apply]
    split
    · next heq => rw [heq]
    · rfl
  intro coreId
  unfold coreRequest
  split
  · rfl
  · dsimp only
    split
    · exact hqueue m _ coreId
    · refine (hqueue _ _ coreId).trans ?_
      generalize m.getDestNode _ = dest
      cases dest <;> rfl

theorem sameLoads_sendBack (src : Place) (response : MemoryAccess) (m : Simulator) :
    SameLoads m (m.sendBack src response) := by
  intro coreId
  unfold sendBack
  dsimp only
  generalize m.getDestNode _ = dest
  cases dest <;> rfl

theorem cores_notePimCommandIssued (memId : Nat) (m : Simulator) :
    (m.notePimCommandIssued memId).cores = m.cores := by
  unfold notePimCommandIssued
  split <;> rfl

/-- **Only an answer changes the loads of a core**, of the parts of the interconnect cycle. -/
theorem sameLoads_op (bp : BackPressure) (m : Simulator) {o : Op} (ho : ∀ c, o ≠ .coreResponse c) :
    SameLoads m (m.op bp o) := by
  cases o with
  | coreRequest c => exact sameLoads_coreRequest _ c m
  | coreResponse c => exact absurd rfl (ho c)
  | noteCandidate memId =>
      intro coreId
      simp only [op, notePimCommandCandidate]
      split <;> rfl
  | drainHold memId =>
      intro coreId
      simp only [op, drainHold]
      split
      · rfl
      · split
        · simp only [cores_notePimCommandIssued]
          rfl
        · rfl
  | refill memId =>
      exact refill_of_moved composes_sameLoads (fun _ _ _ _ _ => rfl) m
  | issue memId =>
      intro coreId
      have hnote : ∀ selected, (m.noteTlmReadIssueWindow memId selected).cores = m.cores := by
        intro selected
        unfold noteTlmReadIssueWindow
        split
        · rfl
        · split <;> rfl
      simp only [op, issue]
      split
      · rw [hnote]
      · split
        · rw [hnote]
        · simp only [accept]
          split
          · simp only [cores_notePimCommandIssued]
            exact congrArg (fun f => (f coreId).loads) (hnote _)
          · exact congrArg (fun f => (f coreId).loads) (hnote _)
  | drainBypass memId =>
      intro coreId
      simp only [op, drainBypass]
      split
      · rfl
      · split
        · exact sameLoads_sendBack _ _ _ coreId
        · rfl
  | drainSsrcBypass memId =>
      intro coreId
      simp only [op, drainSsrcBypass]
      split
      · rfl
      · split
        · exact sameLoads_sendBack _ _ _ coreId
        · rfl
  | dramResponse memId =>
      intro coreId
      simp only [op, dramResponse]
      split
      · rfl
      · split
        · rfl
        · exact sameLoads_sendBack _ _ _ coreId

end Parts

/-- The loads of a core after an answer. -/
theorem loads_of_coreResponse {m : Simulator} {c : Nat} {response : MemoryAccess}
    {rest : List MemoryAccess} (hq : m.coreOutput c = response :: rest) (coreId : Nat) :
    ((m.coreResponse c).1.cores coreId).loads =
      if coreId = c then (Simulator.pushMemoryResponse response (m.cores c)).loads
      else (m.cores coreId).loads := by
  unfold Simulator.coreResponse
  rw [hq]
  unfold Simulator.updateCore
  dsimp only
  rw [Function.update_apply]
  split <;> rfl

/-- An answered load is one of those on their way; the others stay. -/
theorem perm_of_find {id : Nat} : ∀ {ls : List (SpadSlot × Nat)} {l : SpadSlot × Nat},
    (ls.map Prod.snd).Nodup → ls.find? (fun l => l.2 == id) = some l →
      (ls.map Prod.fst).Perm (l.1 :: (ls.filter fun l => l.2 ≠ id).map Prod.fst) := by
  intro ls
  induction ls with
  | nil => exact fun _ hfind => by cases hfind
  | cons first rest ih =>
      intro l hnodup hfind
      rw [List.map_cons, List.nodup_cons] at hnodup
      by_cases hid : first.2 = id
      · rw [List.find?_cons_of_pos (by simpa using hid)] at hfind
        cases hfind
        have hrest : rest.filter (fun l => l.2 ≠ id) = rest :=
          List.filter_eq_self.mpr fun l hl => by
            refine decide_eq_true fun heq => hnodup.1 ?_
            rw [hid, ← heq]
            exact List.mem_map_of_mem hl
        rw [List.filter_cons_of_neg (by simpa using hid), hrest, List.map_cons]
      · rw [List.find?_cons_of_neg (by simpa using hid)] at hfind
        rw [List.filter_cons_of_pos (by simpa using hid), List.map_cons, List.map_cons]
        exact ((ih hnodup.2 hfind).cons first.1).trans (.swap _ _ _)

/-! ## 2. The requests of a core -/

/-- The loads of a core after a request. -/
theorem loads_of_request (m : Simulator) (c : Nat) (access : MemoryAccess) (f : Core → Core)
    (coreId : Nat) : ((m.request c access f).1.cores coreId).loads =
      if coreId = c then (f (m.cores c)).loads else (m.cores coreId).loads := by
  unfold Simulator.request Simulator.updateCore
  dsimp only
  rw [Function.update_apply]
  split <;> rfl

theorem loads_of_exec_load {m m' : Simulator} {c : Nat} {slot : SpadSlot} {access : MemoryAccess}
    {e : List Transfer} (he : m.exec (.load c slot access) = some (m', e)) (coreId : Nat) :
    loadSlots m' coreId = loadSlots m coreId ++ if coreId = c then [slot] else [] := by
  simp only [Simulator.exec, Option.ite_none_right_eq_some, Option.some.injEq] at he
  have hm := congrArg Prod.fst he.2
  dsimp only at hm
  rw [← hm, loadSlots, loads_of_request, loadSlots]
  split
  · next heq => rw [heq, List.map_append, List.map_singleton]
  · rw [List.append_nil]

theorem loads_of_exec_store {m m' : Simulator} {c : Nat} {access : MemoryAccess}
    {e : List Transfer} (he : m.exec (.store c access) = some (m', e)) (coreId : Nat) :
    loadSlots m' coreId = loadSlots m coreId := by
  simp only [Simulator.exec, Option.ite_none_right_eq_some, Option.some.injEq] at he
  have hm := congrArg Prod.fst he.2
  dsimp only at hm
  rw [← hm, loadSlots, loads_of_request, loadSlots]
  split
  · next heq => rw [heq]
  · rfl

/-- **The requests of a core's cycle.** -/
theorem loads_of_requestActs {c : Nat} {loads : List (SpadSlot × MemoryAccess)}
    {stores : List MemoryAccess} {m m' : Simulator} {e : List Transfer}
    (hr : Simulator.machine.run (System.requestActs c loads stores) m = some (m', e))
    (coreId : Nat) :
    loadSlots m' coreId =
      loadSlots m coreId ++ if coreId = c then loads.map Prod.fst else [] := by
  induction loads generalizing m e with
  | nil =>
      rw [List.map_nil, ite_self, List.append_nil]
      induction stores generalizing m e with
      | nil =>
          cases hr
          rfl
      | cons access stores ih =>
          simp only [System.requestActs, List.map_nil, List.nil_append, List.map_cons,
            Machine.run] at hr
          split at hr
          · cases hr
          · next t hstep =>
              split at hr
              · cases hr
              · next t' k hrest =>
                  cases hr
                  obtain ⟨v, hexec, _⟩ := Simulator.machine_step hstep
                  rw [ih hrest, loads_of_exec_store hexec]
  | cons load loads ih =>
      simp only [System.requestActs, List.map_cons, List.cons_append, Machine.run] at hr
      split at hr
      · cases hr
      · next t hstep =>
          split at hr
          · cases hr
          · next t' k hrest =>
              cases hr
              obtain ⟨v, hexec, _⟩ := Simulator.machine_step hstep
              rw [ih hrest, loads_of_exec_load hexec, List.append_assoc]
              split
              · rfl
              · rfl

end Ahasd.Npu
