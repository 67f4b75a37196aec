/-
  File:      Ahasd/Simulator/Conservation.lean
  Subject:   EVERY REQUEST IS IN ONE PLACE.

  What the account of a run says of a request that reached a memory node, at every moment: between
  two acts, and inside a cycle after each of its parts.

  * `Conserved`: the statement; `Account.conserved`: it follows from the account;
  * `Account.awaited`: the core waits for a request that is somewhere.
-/
import Ahasd.Simulator.Account

namespace Ahasd

open Transition TokenFlow Simulator

/-- The places a request can be in once it has reached a memory node. -/
def Place.reached : Place → Bool
  | requestQueue _ | toMemory _ => false
  | _ => true

/-- The DRAM backends, and the places only an absorbed or answered request is in. -/
def Place.served : Place → Bool
  | aauBypass _ | ssrcBypass _ | dram _ | toCore _ | coreOutput _ => true
  | _ => false

/-- The way back to a core. -/
def Place.response : Place → Bool
  | toCore _ | coreOutput _ => true
  | _ => false

namespace Transfer

/-- The request arrives at a memory node. -/
def arrives (v : Transfer) : Bool := v.dst.any fun p => match p with
  | .icntOutput _ => true
  | _ => false

/-- The request is pushed into a DRAM backend. -/
def pushes (v : Transfer) : Bool := v.dst.any fun p => match p with
  | .dram _ => true
  | _ => false

/-- The request is sent back. -/
def sends (v : Transfer) : Bool := v.dst.any fun p => match p with
  | .toCore _ => true
  | _ => false

/-- The core has its answer. -/
def returns (v : Transfer) : Bool := v.dst.isNone

end Transfer

/-- The requests of the transfers of a kind, in order. -/
def requestsOf (kind : Transfer → Bool) (h : List Transfer) : List MemoryAccess :=
  (h.filter kind).map Transfer.access

namespace Simulator

variable {s : Simulator} {h : List Transfer}

/-- The request is in this place, once, and in no other; `none`: it is in no place. -/
def InPlace (s : Simulator) (access : MemoryAccess) (o : Option Place) : Prop :=
  ∀ p, ((s.contents p).map MemoryAccess.identity).count access = if o = some p then 1 else 0

/-- **What holds of the requests at a moment**: one that reached a memory node is in exactly one
    place from there on until its core has the answer; it entered DRAM at most once; it was sent
    back once, to its core, if and only if it is on the way back or the core has it. -/
structure Conserved (s : Simulator) (h : List Transfer) : Prop where
  one_place : ∀ access ∈ requestsOf Transfer.arrives h,
    (∃ p, p.reached = true ∧ s.InPlace access (some p) ∧
      access ∉ requestsOf Transfer.returns h) ∨
    (s.InPlace access none ∧ (requestsOf Transfer.returns h).count access = 1)
  pushed_once : ∀ access, (requestsOf Transfer.pushes h).count access ≤ 1
  sent_once : ∀ access ∈ requestsOf Transfer.arrives h,
    (requestsOf Transfer.sends h).count access ≤ 1 ∧
      (access ∈ requestsOf Transfer.sends h ↔
        (∃ p, p.response = true ∧ s.InPlace access (some p)) ∨
          access ∈ requestsOf Transfer.returns h)
  to_its_core : ∀ v ∈ h, ∀ c, v.dst = some (.toCore c) → c = v.access.coreId

/-! ## 1. Kinds of transfers as crossings -/

theorem requestsOf_congr {kind kind' : Transfer → Bool} (hk : ∀ v ∈ h, kind v = kind' v) :
    requestsOf kind h = requestsOf kind' h := by
  unfold requestsOf
  rw [List.filter_congr hk]

theorem enteringTokens_moves (B : Place → Bool) (h : List Transfer) :
    enteringTokens B (moves h) = requestsOf (fun v => v.move.entering B) h := by
  unfold enteringTokens moves requestsOf
  rw [List.filter_map, List.map_map]
  rfl

theorem leavingTokens_moves (B : Place → Bool) (h : List Transfer) :
    leavingTokens B (moves h) = requestsOf (fun v => v.move.leaving B) h := by
  unfold leavingTokens moves requestsOf
  rw [List.filter_map, List.map_map]
  rfl

/-- A set of places that no route leaves. -/
structure Closed (B : Place → Bool) : Prop where
  route : ∀ p q, Place.Leads p q = true → B p = true → B q = true
  output : ∀ c, B (.coreOutput c) = true

theorem closed_anywhere : Closed anywhere := ⟨fun _ _ _ _ => rfl, fun _ => rfl⟩

theorem closed_reached : Closed Place.reached where
  route p q hl hp := by
    cases p <;> cases q <;> first | rfl | exact Bool.noConfusion hl | exact Bool.noConfusion hp
  output _ := rfl

theorem closed_served : Closed Place.served where
  route p q hl hp := by
    cases p <;> cases q <;> first | rfl | exact Bool.noConfusion hl | exact Bool.noConfusion hp
  output _ := rfl

theorem closed_response : Closed Place.response where
  route p q hl hp := by
    cases p <;> cases q <;> first | rfl | exact Bool.noConfusion hl | exact Bool.noConfusion hp
  output _ := rfl

/-- A closed set is left with the answer, and only then. -/
theorem leaving_closed {B : Place → Bool} (hB : Closed B) {v : Transfer} (hv : v.Routed) :
    v.move.leaving B = v.returns := by
  unfold Move.leaving Transfer.move Transfer.returns inside
  cases hd : v.dst with
  | none =>
      rw [hv.done hd]
      simp [hB.output]
  | some q =>
      cases hs : v.src with
      | none => rfl
      | some p =>
          cases hp : B p with
          | false => simp [hp]
          | true => simp [hB.route p q (hv.between p q hs hd) hp]

theorem entering_reached {v : Transfer} (hv : v.Routed) :
    v.move.entering Place.reached = v.arrives := by
  unfold Move.entering Transfer.move Transfer.arrives inside
  cases hd : v.dst with
  | none => rfl
  | some q =>
      cases hs : v.src with
      | none =>
          have hq := hv.made hs
          rw [hd] at hq
          cases hq
          rfl
      | some p =>
          have hl := hv.between p q hs hd
          cases p <;> cases q <;> first | rfl | exact Bool.noConfusion hl

theorem entering_response {v : Transfer} (hv : v.Routed) :
    v.move.entering Place.response = v.sends := by
  unfold Move.entering Transfer.move Transfer.sends inside
  cases hd : v.dst with
  | none => rfl
  | some q =>
      cases hs : v.src with
      | none =>
          have hq := hv.made hs
          rw [hd] at hq
          cases hq
          rfl
      | some p =>
          have hl := hv.between p q hs hd
          cases p <;> cases q <;> first | rfl | exact Bool.noConfusion hl

theorem entering_served {v : Transfer} (hv : v.Routed) (hp : v.pushes = true) :
    v.move.entering Place.served = true := by
  unfold Transfer.pushes at hp
  unfold Move.entering Transfer.move inside
  cases hd : v.dst with
  | none =>
      rw [hd] at hp
      cases hp
  | some q =>
      rw [hd] at hp
      cases hs : v.src with
      | none =>
          have hq := hv.made hs
          rw [hd] at hq
          cases hq
          exact Bool.noConfusion hp
      | some p =>
          have hl := hv.between p q hs hd
          cases p <;> cases q <;>
            first | rfl | exact Bool.noConfusion hl | exact Bool.noConfusion hp

/-! ## 2. One place, one push, one answer -/

section Account

variable (ha : Account s h)
include ha

theorem Account.arrivals : requestsOf Transfer.arrives h = enteringTokens Place.reached (moves h) := by
  rw [enteringTokens_moves]
  exact requestsOf_congr fun v hv => (entering_reached (ha.routes v hv)).symm

theorem Account.sent : requestsOf Transfer.sends h = enteringTokens Place.response (moves h) := by
  rw [enteringTokens_moves]
  exact requestsOf_congr fun v hv => (entering_response (ha.routes v hv)).symm

theorem Account.returned {B : Place → Bool} (hB : Closed B) :
    requestsOf Transfer.returns h = leavingTokens B (moves h) := by
  rw [leavingTokens_moves]
  exact requestsOf_congr fun v hv => (leaving_closed hB (ha.routes v hv)).symm

/-- Where a request is, and what its history says of it. -/
theorem Account.placed (access : MemoryAccess) : ∃ o, s.InPlace access o ∧
    (made h).count access =
      (requestsOf Transfer.returns h).count access + (if o.isSome = true then 1 else 0) ∧
    (requestsOf Transfer.arrives h).count access =
      (requestsOf Transfer.returns h).count access +
        (if inside Place.reached o = true then 1 else 0) ∧
    (requestsOf Transfer.sends h).count access =
      (requestsOf Transfer.returns h).count access +
        (if inside Place.response o = true then 1 else 0) := by
  obtain ⟨o, hat, hcross⟩ := ha.flow.located ha.distinct access
  refine ⟨o, hat, ?_, ?_, ?_⟩
  · rw [ha.returned closed_anywhere]
    have hc := hcross anywhere
    cases o <;> exact hc
  · rw [ha.arrivals, ha.returned closed_reached]
    exact hcross _
  · rw [ha.sent, ha.returned closed_response]
    exact hcross _

theorem Account.made_le_one (access : MemoryAccess) : (made h).count access ≤ 1 :=
  ha.distinct access

/-- A transfer into a closed set happens once to a request. -/
theorem Account.once {kind : Transfer → Bool} {B : Place → Bool} (hB : Closed B)
    (hkind : ∀ v : Transfer, v.Routed → kind v = true → v.move.entering B = true)
    (access : MemoryAccess) : (requestsOf kind h).count access ≤ 1 := by
  have hsub : (requestsOf kind h).Sublist (enteringTokens B (moves h)) := by
    rw [enteringTokens_moves]
    refine List.Sublist.map _ ?_
    have hboth : h.filter kind = (h.filter fun v => v.move.entering B).filter kind := by
      rw [List.filter_filter]
      refine List.filter_congr fun v hv => ?_
      cases hp : kind v with
      | false => rfl
      | true => rw [hkind v (ha.routes v hv) hp, Bool.and_self]
    rw [hboth]
    exact List.filter_sublist
  refine (hsub.count_le access).trans (ha.flow.entries_le_one ha.distinct ?_ access)
  intro w hw hleave
  obtain ⟨v, hv, rfl⟩ := List.mem_map.mp hw
  rw [leaving_closed hB (ha.routes v hv)] at hleave
  exact Option.isNone_iff_eq_none.mp hleave

theorem Account.pushed_once (access : MemoryAccess) :
    (requestsOf Transfer.pushes h).count access ≤ 1 :=
  ha.once closed_served (fun _ hv hp => entering_served hv hp) access

/-- **The core waits for a request that is somewhere**: it counts the write, or it has the slot of
    the load. -/
theorem Account.awaited {p : Place} {access : MemoryAccess} (hmem : access ∈ s.contents p) :
    (access.write = true → (s.cores access.coreId).waitingWriteReqs ≠ 0) ∧
      (access.write = false → ∃ slot, (slot, access.id) ∈ (s.cores access.coreId).loads) := by
  refine ⟨fun hw hzero => ?_, fun hw => ha.loads access.identity (ha.outstanding hmem) hw⟩
  have hbooks := ha.waiting access.coreId
  have hle := (ha.answered_cons_subperm hmem).countP_le (writeOf access.coreId)
  rw [List.countP_cons_of_pos (by simp [writeOf, MemoryAccess.identity, hw])] at hle
  omega

/-- **The account conserves the requests.** -/
theorem Account.conserved : Conserved s h := by
  have hplace : ∀ access ∈ requestsOf Transfer.arrives h,
      (∃ p, p.reached = true ∧ s.InPlace access (some p) ∧
        access ∉ requestsOf Transfer.returns h) ∨
      (s.InPlace access none ∧ (requestsOf Transfer.returns h).count access = 1) := by
    intro access harr
    obtain ⟨o, hat, hmade, harrive, _⟩ := ha.placed access
    have hone := ha.made_le_one access
    have hpos := List.count_pos_iff.mpr harr
    cases o with
    | none =>
        simp only [inside, Option.any_none, Option.isSome_none, Bool.false_eq_true, if_false]
          at hmade harrive
        exact .inr ⟨hat, by omega⟩
    | some p =>
        simp only [Option.isSome_some, if_true] at hmade
        have hzero : (requestsOf Transfer.returns h).count access = 0 := by omega
        refine .inl ⟨p, ?_, hat, List.count_eq_zero.mp hzero⟩
        by_contra hp
        rw [if_neg (by simpa [inside] using hp)] at harrive
        omega
  have hsent : ∀ access ∈ requestsOf Transfer.arrives h,
      (requestsOf Transfer.sends h).count access ≤ 1 ∧
        (access ∈ requestsOf Transfer.sends h ↔
          (∃ p, p.response = true ∧ s.InPlace access (some p)) ∨
            access ∈ requestsOf Transfer.returns h) := by
    intro access harr
    obtain ⟨o, hat, hmade, _, hsend⟩ := ha.placed access
    have hone := ha.made_le_one access
    rw [← List.count_pos_iff, ← List.count_pos_iff]
    cases o with
    | none =>
        simp only [inside, Option.any_none, Option.isSome_none, Bool.false_eq_true, if_false]
          at hmade hsend
        refine ⟨by omega, fun hpos => .inr (by omega), fun hor => ?_⟩
        rcases hor with ⟨p, _, hp⟩ | hpos
        · have h1 := hp p
          rw [hat p] at h1
          simp at h1
        · omega
    | some p =>
        simp only [Option.isSome_some, if_true] at hmade
        have hzero : (requestsOf Transfer.returns h).count access = 0 := by omega
        rw [hzero] at hsend ⊢
        refine ⟨by split at hsend <;> omega, fun hpos => .inl ⟨p, ?_, hat⟩, fun hor => ?_⟩
        · by_contra hp
          rw [if_neg (show ¬ inside Place.response (some p) = true from hp)] at hsend
          omega
        · rcases hor with ⟨q, hq, hqat⟩ | hpos
          · have h1 := hat q
            rw [hqat q, if_pos rfl] at h1
            have hpq : p = q := by
              by_contra hne
              rw [if_neg (fun heq => hne (Option.some.inj heq))] at h1
              cases h1
            rw [hpq, if_pos (show inside Place.response (some q) = true from hq)] at hsend
            omega
          · omega
  exact
    { one_place := hplace
      pushed_once := ha.pushed_once
      sent_once := hsent
      to_its_core := fun v hv c hdst => (ha.routes v hv).back c hdst }

end Account

end Simulator

end Ahasd
