/-
  File:      Ahasd/Backends/Interconnect.lean
  Subject:   THE SIMPLE INTERCONNECT: `SimpleInterconnect` of `Interconnect.cc`.

  The cores and the memory nodes are numbered through (`nNodes`). Each node has a buffer of packets
  it sent, with the cycle each is through at, and a buffer of what has arrived for it. A cycle asks
  the nodes in turn, from `rrStart` on; the front of a buffer goes out if it is due and nothing has
  arrived at its destination in this cycle. `rrStart` is not set by the constructor: a run starts
  with what the memory held. The turns are computed in 32 bits: where a result is about their
  order, the nodes are at most 2 ^ 31, and the first turn does not wrap
  (`rrStart + nNodes ≤ 2 ^ 32`).

  * `run_conserves`: a source's packets arrive in the order they were sent, and what arrives at a
    node is taken in the order it arrived; nothing is lost, nothing comes twice;
  * `cycle_matching`: what a cycle brings over is a MAXIMAL MATCHING of the due fronts with their
    destinations;
  * `arrives_within`: a packet with `k` packets ahead of it arrives within
    `latency + nNodes * (k + 1)` cycles, whatever the other nodes send.
-/
import Ahasd.PIMBackend
import Ahasd.Lib.BoundedProgress
import Ahasd.Lib.RoundRobin

namespace Ahasd

open Transition

/-! ## 1. The state and its operations -/

/-- `SimpleInterconnect::Entity`. -/
structure Entity where
  finishCycle : Nat
  dest : Nat
  access : MemoryAccess
  deriving DecidableEq

/-- `SimpleInterconnect`. -/
structure SimpleInterconnect where
  nNodes : Nat
  latency : Nat
  cycles : Nat := 0
  rrStart : Nat
  inBuffers : Nat → List Entity := fun _ => []
  outBuffers : Nat → List MemoryAccess := fun _ => []
  busyNode : Nat → Bool := fun _ => false

/-- What a step of the interconnect shows. -/
inductive IcntEvent where
  | pushed (src dest : Nat) (access : MemoryAccess)
  | brought (src dest : Nat) (access : MemoryAccess)
  | popped (nid : Nat) (access : MemoryAccess)
  deriving DecidableEq

namespace SimpleInterconnect

/-- The cycle a packet sent now is through at. -/
def finishOf (s : SimpleInterconnect) (src : Nat) : Nat :=
  match (s.inBuffers src).getLast? with
  | none => s.cycles + s.latency
  | some back => back.finishCycle + 1

/-- `push`. -/
def push (src dest : Nat) (access : MemoryAccess) (s : SimpleInterconnect) : SimpleInterconnect :=
  { s with
    inBuffers := Function.update s.inBuffers src
      (s.inBuffers src ++ [{ finishCycle := s.finishOf src, dest := dest, access := access }]) }

/-- `is_full`. -/
def isFull (_ : SimpleInterconnect) (_ : Nat) (_ : MemoryAccess) : Bool := false

/-- `is_empty`. -/
def isEmpty (s : SimpleInterconnect) (nid : Nat) : Bool := (s.outBuffers nid).isEmpty

/-- `top`. -/
def top (s : SimpleInterconnect) (nid : Nat) : Option MemoryAccess := (s.outBuffers nid).head?

/-- `pop`. -/
def pop (nid : Nat) (s : SimpleInterconnect) : SimpleInterconnect :=
  { s with outBuffers := Function.update s.outBuffers nid (s.outBuffers nid).tail }

/-- A node's turn in `cycle`. -/
def serve (srcNode : Nat) (s : SimpleInterconnect) : SimpleInterconnect × List IcntEvent :=
  match s.inBuffers srcNode with
  | [] => (s, [])
  | front :: rest =>
      if front.finishCycle ≤ s.cycles ∧ s.busyNode front.dest = false then
        ({ s with
            inBuffers := Function.update s.inBuffers srcNode rest
            outBuffers := Function.update s.outBuffers front.dest
              (s.outBuffers front.dest ++ [front.access])
            busyNode := Function.update s.busyNode front.dest true },
          [.brought srcNode front.dest front.access])
      else (s, [])

/-- The turns of several nodes. -/
def serveAll : List Nat → SimpleInterconnect → SimpleInterconnect × List IcntEvent
  | [], s => (s, [])
  | node :: nodes, s =>
      let r := s.serve node
      let r' := serveAll nodes r.1
      (r'.1, r.2 ++ r'.2)

/-- The nodes in the order `cycle` asks them; `_rr_start + node` is a 32-bit sum. -/
def order (s : SimpleInterconnect) : List Nat :=
  (List.range s.nNodes).map fun node => (s.rrStart + node) % 2 ^ 32 % s.nNodes

/-- `cycle`. -/
def cycle (s : SimpleInterconnect) : SimpleInterconnect × List IcntEvent :=
  let r := serveAll s.order s
  ({ r.1 with
      busyNode := fun _ => false
      rrStart := (r.1.rrStart + 1) % 2 ^ 32 % r.1.nNodes
      cycles := r.1.cycles + 1 }, r.2)

end SimpleInterconnect

/-- What is done to the interconnect. -/
inductive IcntAct where
  | push (src dest : Nat) (access : MemoryAccess)
  | cycle
  | pop (nid : Nat)

namespace SimpleInterconnect

/-- One act, with what it shows. A node out of range and a pop of an empty buffer are errors. -/
def exec (s : SimpleInterconnect) : IcntAct → Option (SimpleInterconnect × List IcntEvent)
  | .push src dest access =>
      if src < s.nNodes ∧ dest < s.nNodes then
        some (s.push src dest access, [.pushed src dest access])
      else none
  | .cycle => some s.cycle
  | .pop nid => (s.top nid).map fun access => (s.pop nid, [.popped nid access])

/-- The interconnect as a machine. -/
def machine : Machine SimpleInterconnect IcntAct IcntEvent where
  step s a := (s.exec a).map Prod.fst
  obs s a _ := ((s.exec a).map Prod.snd).getD []

/-- The constructor; `rrStart` is what the memory held. -/
def new (nNodes latency rrStart : Nat) : SimpleInterconnect where
  nNodes := nNodes
  latency := latency
  rrStart := rrStart

/-- A step is an act, and shows what the act shows. -/
theorem exec_of_step {s s' : SimpleInterconnect} {a : IcntAct}
    (hs : machine.step s a = some s') :
    ∃ e, s.exec a = some (s', e) ∧ machine.obs s a s' = e := by
  obtain ⟨⟨t, e⟩, he, rfl⟩ := Option.map_eq_some_iff.mp hs
  exact ⟨e, he, by simp only [machine, he]; rfl⟩

end SimpleInterconnect

/-! ## 2. What a history holds -/

/-- The packets a node sent, with their destinations. -/
def sentFrom (src : Nat) (h : List IcntEvent) : List (Nat × MemoryAccess) :=
  h.filterMap fun
    | .pushed s d access => if s = src then some (d, access) else none
    | _ => none

/-- The packets brought over from a node, with their destinations. -/
def broughtFrom (src : Nat) (h : List IcntEvent) : List (Nat × MemoryAccess) :=
  h.filterMap fun
    | .brought s d access => if s = src then some (d, access) else none
    | _ => none

/-- The packets brought to a node. -/
def broughtTo (dest : Nat) (h : List IcntEvent) : List MemoryAccess :=
  h.filterMap fun
    | .brought _ d access => if d = dest then some access else none
    | _ => none

/-- The packets taken at a node. -/
def takenAt (nid : Nat) (h : List IcntEvent) : List MemoryAccess :=
  h.filterMap fun
    | .popped d access => if d = nid then some access else none
    | _ => none

section History

variable (k : Nat) (h e : List IcntEvent)

@[simp] theorem sentFrom_append : sentFrom k (h ++ e) = sentFrom k h ++ sentFrom k e :=
  List.filterMap_append

@[simp] theorem broughtFrom_append : broughtFrom k (h ++ e) = broughtFrom k h ++ broughtFrom k e :=
  List.filterMap_append

@[simp] theorem broughtTo_append : broughtTo k (h ++ e) = broughtTo k h ++ broughtTo k e :=
  List.filterMap_append

@[simp] theorem takenAt_append : takenAt k (h ++ e) = takenAt k h ++ takenAt k e :=
  List.filterMap_append

end History

namespace SimpleInterconnect

/-- The packets of a node that are on their way. -/
def underway (s : SimpleInterconnect) (src : Nat) : List (Nat × MemoryAccess) :=
  (s.inBuffers src).map fun e => (e.dest, e.access)

/-! ## 3. Nothing is lost -/

/-- From one state to the other every packet is accounted for, in order. -/
structure Balanced (s : SimpleInterconnect) (r : SimpleInterconnect × List IcntEvent) : Prop where
  sources : ∀ src, s.underway src ++ sentFrom src r.2 = broughtFrom src r.2 ++ r.1.underway src
  dests : ∀ dest, s.outBuffers dest ++ broughtTo dest r.2 = takenAt dest r.2 ++ r.1.outBuffers dest

theorem balanced_composes : Composes Balanced where
  nothing s := ⟨fun src => by simp [sentFrom, broughtFrom],
    fun dest => by simp [broughtTo, takenAt]⟩
  trans {s s' s'' e e'} h h' := by
    constructor
    · intro src
      calc s.underway src ++ sentFrom src (e ++ e')
          = (s.underway src ++ sentFrom src e) ++ sentFrom src e' := by simp
        _ = broughtFrom src e ++ (s'.underway src ++ sentFrom src e') := by
            rw [h.sources src, List.append_assoc]
        _ = broughtFrom src (e ++ e') ++ s''.underway src := by rw [h'.sources src]; simp
    · intro dest
      calc s.outBuffers dest ++ broughtTo dest (e ++ e')
          = (s.outBuffers dest ++ broughtTo dest e) ++ broughtTo dest e' := by simp
        _ = takenAt dest e ++ (s'.outBuffers dest ++ broughtTo dest e') := by
            rw [h.dests dest, List.append_assoc]
        _ = takenAt dest (e ++ e') ++ s''.outBuffers dest := by rw [h'.dests dest]; simp

theorem push_balanced (src dest : Nat) (access : MemoryAccess) (s : SimpleInterconnect) :
    Balanced s (s.push src dest access, [.pushed src dest access]) := by
  constructor
  · intro k
    by_cases hk : k = src
    · subst hk
      simp [underway, push, sentFrom, broughtFrom]
    · simp [underway, push, sentFrom, broughtFrom, Function.update_of_ne hk, Ne.symm hk]
  · intro k
    simp [push, broughtTo, takenAt]

theorem pop_balanced {nid : Nat} {access : MemoryAccess} {s : SimpleInterconnect}
    (h : s.top nid = some access) : Balanced s (s.pop nid, [.popped nid access]) := by
  constructor
  · intro k
    simp [underway, pop, sentFrom, broughtFrom]
  · intro k
    by_cases hk : k = nid
    · subst hk
      obtain ⟨rest, hrest⟩ := List.head?_eq_some_iff.mp h
      simp [pop, broughtTo, takenAt, hrest]
    · simp [pop, broughtTo, takenAt, Function.update_of_ne hk, Ne.symm hk]

theorem serve_balanced (node : Nat) (s : SimpleInterconnect) : Balanced s (s.serve node) := by
  unfold serve
  split
  · exact balanced_composes.nothing s
  · next front rest hq =>
      split
      · constructor
        · intro k
          by_cases hk : k = node
          · subst hk
            simp [underway, sentFrom, broughtFrom, hq]
          · simp [underway, sentFrom, broughtFrom, Function.update_of_ne hk, Ne.symm hk]
        · intro k
          by_cases hk : k = front.dest
          · subst hk
            simp [broughtTo, takenAt]
          · simp [broughtTo, takenAt, Function.update_of_ne hk, Ne.symm hk]
      · exact balanced_composes.nothing s

theorem serveAll_balanced : ∀ (nodes : List Nat) (s : SimpleInterconnect),
    Balanced s (serveAll nodes s) := by
  intro nodes
  induction nodes with
  | nil => exact balanced_composes.nothing
  | cons node nodes ih =>
      intro s
      exact balanced_composes.trans (serve_balanced node s) (ih _)

theorem exec_balanced {s s' : SimpleInterconnect} {a : IcntAct} {e : List IcntEvent}
    (h : s.exec a = some (s', e)) : Balanced s (s', e) := by
  cases a with
  | push src dest access =>
      simp only [exec] at h
      split at h
      · cases h
        exact push_balanced src dest access s
      · cases h
  | cycle =>
      cases h
      have hb := serveAll_balanced s.order s
      exact ⟨hb.sources, hb.dests⟩
  | pop nid =>
      obtain ⟨access, ht, heq⟩ := Option.map_eq_some_iff.mp h
      cases heq
      exact pop_balanced ht

/-- A run keeps account of every packet. -/
theorem exec_run_balanced {s₀ s : SimpleInterconnect} {h : List IcntEvent}
    (hr : Exec machine s₀ s h) : Balanced s₀ (s, h) := by
  refine hr.invariant (P := fun s h => Balanced s₀ (s, h)) (balanced_composes.nothing s₀) ?_
  intro s h a s' hb hs
  obtain ⟨e, he, hobs⟩ := exec_of_step hs
  rw [hobs]
  exact balanced_composes.trans hb (exec_balanced he)

/-- **Nothing is lost, nothing comes twice, and order is kept**: in every run, the packets a node
    sent are those brought over from it and those still on their way, in the order sent; the
    packets brought to a node are those taken there and those it still has, in the order brought. -/
theorem run_conserves {nNodes latency rrStart : Nat} {s : SimpleInterconnect} {as : List IcntAct}
    {h : List IcntEvent} (hr : machine.run as (new nNodes latency rrStart) = some (s, h)) :
    (∀ src, sentFrom src h = broughtFrom src h ++ s.underway src) ∧
      ∀ dest, broughtTo dest h = takenAt dest h ++ s.outBuffers dest := by
  have hb := exec_run_balanced (exec_of_run hr)
  exact ⟨fun src => by simpa [underway, new] using hb.sources src,
    fun dest => by simpa [new] using hb.dests dest⟩

/-- Two packets to one node and one back, one of them taken. -/
def icntSample : List IcntAct :=
  let access : MemoryAccess :=
    { id := 0, dramAddress := 0, size := 32, write := false, request := true, coreId := 0 }
  [.push 0 2 access, .push 0 1 { access with id := 1 }, .push 1 2 { access with id := 2 },
    .cycle, .cycle, .cycle, .pop 2, .cycle]

theorem run_conserves_sample : ∃ s h, machine.run icntSample (new 3 1 7) = some (s, h) ∧
    sentFrom 0 h = broughtFrom 0 h ++ s.underway 0 ∧
    broughtTo 2 h = takenAt 2 h ++ s.outBuffers 2 :=
  have ⟨⟨s, h⟩, hr⟩ := Option.isSome_iff_exists.mp
    (rfl : (machine.run icntSample (new 3 1 7)).isSome = true)
  ⟨s, h, hr, (run_conserves hr).1 0, (run_conserves hr).2 2⟩

/-! ## 4. A cycle is a round of arbitration -/

/-- Where the front packet of a node wants to go, if it is due. -/
def wants (s : SimpleInterconnect) (node : Nat) : Option Nat :=
  match s.inBuffers node with
  | [] => none
  | front :: _ => if front.finishCycle ≤ s.cycles then some front.dest else none

/-- The front packet of a node is brought over. -/
def bring (s : SimpleInterconnect) (p : Nat × Nat) : Option IcntEvent :=
  (s.inBuffers p.1).head?.map fun front => .brought p.1 p.2 front.access

/-- What the turns of some nodes do: they grant what is wanted, in order, and the packets granted
    leave their buffers. -/
structure Pass (s : SimpleInterconnect) (nodes : List Nat)
    (r : SimpleInterconnect × List IcntEvent) : Prop where
  events : r.2 = (RoundRobin.grants s.wants nodes s.busyNode).filterMap s.bring
  buffers : ∀ src, r.1.inBuffers src =
    if src ∈ (RoundRobin.grants s.wants nodes s.busyNode).map Prod.fst then (s.inBuffers src).tail
    else s.inBuffers src
  nNodes : r.1.nNodes = s.nNodes
  latency : r.1.latency = s.latency
  cycles : r.1.cycles = s.cycles
  rrStart : r.1.rrStart = s.rrStart

/-- A node's turn where nothing is granted. -/
theorem serve_still {s : SimpleInterconnect} {node : Nat}
    (h : ∀ d, s.wants node = some d → s.busyNode d = true) : s.serve node = (s, []) := by
  unfold serve
  split
  · rfl
  · next front rest hq =>
      rw [if_neg]
      rintro ⟨hdue, hfree⟩
      have hbusy := h front.dest (by simp [wants, hq, hdue])
      rw [hfree] at hbusy
      cases hbusy

/-- A node's turn where its front packet goes out. -/
theorem serve_granted {s : SimpleInterconnect} {node d : Nat} (hw : s.wants node = some d)
    (hfree : s.busyNode d = false) :
    ∃ front rest, s.inBuffers node = front :: rest ∧ front.dest = d ∧
      s.serve node =
        ({ s with
            inBuffers := Function.update s.inBuffers node rest
            outBuffers := Function.update s.outBuffers d (s.outBuffers d ++ [front.access])
            busyNode := Function.update s.busyNode d true },
          [.brought node d front.access]) := by
  unfold wants at hw
  split at hw
  · cases hw
  · next front rest hq =>
      split at hw
      · next hdue =>
          cases hw
          refine ⟨front, rest, hq, rfl, ?_⟩
          simp [serve, hq, hdue, hfree]
      · cases hw

theorem serveAll_pass : ∀ (nodes : List Nat) (s : SimpleInterconnect), nodes.Nodup →
    Pass s nodes (serveAll nodes s) := by
  intro nodes
  induction nodes with
  | nil =>
      intro s _
      exact ⟨rfl, fun src => (if_neg List.not_mem_nil).symm, rfl, rfl, rfl, rfl⟩
  | cons node nodes ih =>
      intro s hnd
      obtain ⟨hnot, hnd⟩ := List.nodup_cons.mp hnd
      by_cases hstill : ∀ d, s.wants node = some d → s.busyNode d = true
      · have hrest : serveAll (node :: nodes) s = serveAll nodes s := by
          simp only [serveAll, serve_still hstill, List.nil_append, Prod.mk.eta]
        have hg : RoundRobin.grants s.wants (node :: nodes) s.busyNode =
            RoundRobin.grants s.wants nodes s.busyNode :=
          RoundRobin.grants_cons_still s.wants hstill
        obtain ⟨h1, h2, h3, h4, h5, h6⟩ := ih s hnd
        rw [hrest]
        exact ⟨by rw [h1, hg], fun src => by rw [h2 src, hg], h3, h4, h5, h6⟩
      · obtain ⟨d, hw, hfree⟩ : ∃ d, s.wants node = some d ∧ s.busyNode d = false := by
          simpa using hstill
        obtain ⟨front, rest, hq, -, hs⟩ := serve_granted hw hfree
        have hg : RoundRobin.grants s.wants (node :: nodes) s.busyNode =
            (node, d) :: RoundRobin.grants s.wants nodes (Function.update s.busyNode d true) :=
          RoundRobin.grants_cons_granted s.wants hw hfree
        set t : SimpleInterconnect :=
          { s with
            inBuffers := Function.update s.inBuffers node rest
            outBuffers := Function.update s.outBuffers d (s.outBuffers d ++ [front.access])
            busyNode := Function.update s.busyNode d true } with ht
        -- the nodes still to be asked have what they had
        have hkeep : ∀ i, i ≠ node → t.inBuffers i = s.inBuffers i :=
          fun i hi => Function.update_of_ne hi _ _
        have hne : ∀ i ∈ nodes, i ≠ node := fun i hi h => hnot (h ▸ hi)
        have hgrants : RoundRobin.grants t.wants nodes t.busyNode =
            RoundRobin.grants s.wants nodes (Function.update s.busyNode d true) :=
          RoundRobin.grants_congr fun i hi => by
            unfold wants
            rw [hkeep i (hne i hi)]
        have hmem : ∀ p ∈ RoundRobin.grants s.wants nodes (Function.update s.busyNode d true),
            p.1 ∈ nodes := fun p hp =>
          (RoundRobin.grants_matching s.wants nodes _).sources.subset (List.mem_map_of_mem hp)
        obtain ⟨h1, h2, h3, h4, h5, h6⟩ := ih t hnd
        rw [hgrants] at h1 h2
        have hr : serveAll (node :: nodes) s =
            ((serveAll nodes t).1, .brought node d front.access :: (serveAll nodes t).2) := by
          simp only [serveAll, hs, List.singleton_append]
        rw [hr]
        refine ⟨?_, ?_, h3, h4, h5, h6⟩
        · have hfront : s.bring (node, d) = some (.brought node d front.access) := by
            simp [bring, hq]
          rw [hg, List.filterMap_cons_some hfront, h1]
          refine congrArg _ (List.filterMap_congr fun p hp => ?_)
          simp only [bring, hkeep p.1 (hne p.1 (hmem p hp))]
        · intro src
          rw [hg, List.map_cons, h2 src]
          by_cases hsrc : src = node
          · subst hsrc
            rw [if_neg fun h => ?_, if_pos List.mem_cons_self, hq]
            · simp [ht]
            · obtain ⟨p, hp, hp1⟩ := List.mem_map.mp h
              exact hnot (hp1 ▸ hmem p hp)
          · simp only [List.mem_cons, hsrc, false_or, hkeep src hsrc]

/-! ## 5. What holds of every state a run reaches -/

/-- The sums of `order` do not wrap, no node is marked between cycles, the packets of a buffer are
    through one cycle after the other, and the front is through within the latency. -/
structure Sound (s : SimpleInterconnect) : Prop where
  small : s.nNodes ≤ 2 ^ 31
  wraps : s.rrStart + s.nNodes ≤ 2 ^ 32
  idle : ∀ node, s.busyNode node = false
  inside : ∀ src, s.nNodes ≤ src → s.inBuffers src = []
  spaced : ∀ src, (s.inBuffers src).IsChain fun e f => f.finishCycle = e.finishCycle + 1
  front : ∀ src f, (s.inBuffers src).head? = some f → f.finishCycle ≤ s.cycles + s.latency

theorem new_sound {nNodes latency rrStart : Nat} (hn : nNodes ≤ 2 ^ 31)
    (hrr : rrStart + nNodes ≤ 2 ^ 32) : Sound (new nNodes latency rrStart) where
  small := hn
  wraps := hrr
  idle _ := rfl
  inside _ _ := rfl
  spaced _ := .nil
  front _ _ h := nomatch h

/-- The nodes are asked in turn. -/
theorem Sound.order_eq {s : SimpleInterconnect} (hs : s.Sound) :
    s.order = RoundRobin.turns s.nNodes s.rrStart := by
  refine List.map_congr_left fun i hi => ?_
  have hi := List.mem_range.mp hi
  have hw := hs.wraps
  rw [Nat.mod_eq_of_lt (a := s.rrStart + i) (by omega)]

theorem Sound.push {s : SimpleInterconnect} (hs : s.Sound) {src dest : Nat} {access : MemoryAccess}
    (hsrc : src < s.nNodes) : (s.push src dest access).Sound := by
  refine ⟨hs.small, hs.wraps, hs.idle, ?_, ?_, ?_⟩
  · intro k hk
    have hne : k ≠ src := fun h => absurd hsrc (by subst h; exact Nat.not_lt.mpr hk)
    simpa [SimpleInterconnect.push, Function.update_of_ne hne] using hs.inside k hk
  · intro k
    by_cases hk : k = src
    · subst hk
      simp only [SimpleInterconnect.push, Function.update_self]
      refine (hs.spaced k).append (.singleton _) ?_
      intro e he f hf
      cases hf
      simp [finishOf, Option.mem_def.mp he]
    · simpa [SimpleInterconnect.push, Function.update_of_ne hk] using hs.spaced k
  · intro k f hf
    by_cases hk : k = src
    · subst hk
      simp only [SimpleInterconnect.push, Function.update_self] at hf
      cases hq : s.inBuffers k with
      | nil =>
          rw [hq] at hf
          cases hf
          simp [finishOf, hq, SimpleInterconnect.push]
      | cons g rest =>
          rw [hq] at hf
          exact hs.front k f (by rw [hq]; exact hf)
    · simp only [SimpleInterconnect.push, Function.update_of_ne hk] at hf
      exact hs.front k f hf

/-- The cycle of a sound state, as grants. -/
theorem Sound.pass {s : SimpleInterconnect} (hs : s.Sound) : Pass s s.order (serveAll s.order s) := by
  refine serveAll_pass s.order s ?_
  rw [hs.order_eq]
  exact RoundRobin.nodup_turns _ _

/-- What a cycle does to a buffer: its front leaves, if it is due, or nothing does. -/
theorem Sound.cycle_buffer {s : SimpleInterconnect} (hs : s.Sound) (src : Nat) :
    s.cycle.1.inBuffers src = s.inBuffers src ∨
      ∃ front rest, s.inBuffers src = front :: rest ∧ front.finishCycle ≤ s.cycles ∧
        s.cycle.1.inBuffers src = rest := by
  have hb := hs.pass.buffers src
  by_cases hg : src ∈ (RoundRobin.grants s.wants s.order s.busyNode).map Prod.fst
  · rw [if_pos hg] at hb
    obtain ⟨p, hp, rfl⟩ := List.mem_map.mp hg
    have hw := (RoundRobin.grants_matching s.wants s.order s.busyNode).wanted p hp
    unfold wants at hw
    cases hq : s.inBuffers p.1 with
    | nil => rw [hq] at hw; cases hw
    | cons front rest =>
        rw [hq] at hw hb
        refine .inr ⟨front, rest, rfl, ?_, hb⟩
        dsimp only at hw
        split at hw
        · assumption
        · cases hw
  · rw [if_neg hg] at hb
    exact .inl hb

theorem Sound.cycle {s : SimpleInterconnect} (hs : s.Sound) : s.cycle.1.Sound := by
  obtain ⟨-, -, hn, hl, hc, hrr⟩ := hs.pass
  have hnew : s.cycle.1.nNodes = s.nNodes := hn
  have hlat : s.cycle.1.latency = s.latency := hl
  have hcyc : s.cycle.1.cycles = s.cycles + 1 := congrArg (· + 1) hc
  refine ⟨by rw [hnew]; exact hs.small, ?_, fun _ => rfl, ?_, ?_, ?_⟩
  · have hsmall := hs.small
    have heq : s.cycle.1.rrStart = (s.rrStart + 1) % 2 ^ 32 % s.nNodes := by
      simp only [SimpleInterconnect.cycle, hn, hrr]
    rw [heq, hnew]
    rcases Nat.eq_zero_or_pos s.nNodes with h0 | hpos
    · rw [h0, Nat.mod_zero]
      omega
    · have hlt := Nat.mod_lt ((s.rrStart + 1) % 2 ^ 32) hpos
      omega
  · intro src hsrc
    rw [hnew] at hsrc
    rcases hs.cycle_buffer src with h | ⟨front, rest, hq, -, -⟩
    · rw [h]
      exact hs.inside src hsrc
    · rw [hs.inside src hsrc] at hq
      cases hq
  · intro src
    rcases hs.cycle_buffer src with h | ⟨front, rest, hq, -, h⟩
    · rw [h]
      exact hs.spaced src
    · rw [h]
      have hch := hs.spaced src
      rw [hq] at hch
      exact hch.tail
  · intro src f hf
    rw [hcyc, hlat]
    rcases hs.cycle_buffer src with h | ⟨front, rest, hq, hdue, h⟩
    · rw [h] at hf
      have hle := hs.front src f hf
      omega
    · rw [h] at hf
      obtain ⟨rest', rfl⟩ := List.head?_eq_some_iff.mp hf
      have hch := hs.spaced src
      rw [hq] at hch
      have hnext := (List.isChain_cons_cons.mp hch).1
      omega

theorem exec_sound {s s' : SimpleInterconnect} {a : IcntAct} {e : List IcntEvent}
    (h : s.exec a = some (s', e)) (hs : s.Sound) : s'.Sound := by
  cases a with
  | push src dest access =>
      simp only [exec] at h
      split at h
      · next hin =>
          cases h
          exact hs.push hin.1
      · cases h
  | cycle =>
      cases h
      exact hs.cycle
  | pop nid =>
      obtain ⟨access, -, heq⟩ := Option.map_eq_some_iff.mp h
      cases heq
      exact ⟨hs.small, hs.wraps, hs.idle, hs.inside, hs.spaced, hs.front⟩

theorem exec_same {s s' : SimpleInterconnect} {a : IcntAct} {e : List IcntEvent}
    (h : s.exec a = some (s', e)) (hs : s.Sound) : s'.nNodes = s.nNodes ∧ s'.latency = s.latency := by
  cases a with
  | push src dest access =>
      simp only [exec] at h
      split at h
      · cases h
        exact ⟨rfl, rfl⟩
      · cases h
  | cycle =>
      cases h
      exact ⟨hs.pass.nNodes, hs.pass.latency⟩
  | pop nid =>
      obtain ⟨access, -, heq⟩ := Option.map_eq_some_iff.mp h
      cases heq
      exact ⟨rfl, rfl⟩

theorem run_sound {nNodes latency rrStart : Nat} (hn : nNodes ≤ 2 ^ 31)
    (hrr : rrStart + nNodes ≤ 2 ^ 32) {s : SimpleInterconnect} {as : List IcntAct}
    {h : List IcntEvent} (hr : machine.run as (new nNodes latency rrStart) = some (s, h)) :
    s.Sound ∧ s.nNodes = nNodes ∧ s.latency = latency := by
  refine (exec_of_run hr).invariantOn
    (P := fun s => s.Sound ∧ s.nNodes = nNodes ∧ s.latency = latency)
    ⟨new_sound hn hrr, rfl, rfl⟩ ?_
  rintro s a s' ⟨hs, hnodes, hlat⟩ hst
  obtain ⟨e, he, -⟩ := exec_of_step hst
  obtain ⟨hnodes', hlat'⟩ := exec_same he hs
  exact ⟨exec_sound he hs, hnodes'.trans hnodes, hlat'.trans hlat⟩

/-- **A cycle brings over a maximal matching**: each packet brought over was the front of its buffer
    and due; no two have one source, no two have one destination; and if the front of a buffer is
    due, something goes to its destination. -/
theorem cycle_matching {nNodes latency rrStart : Nat} (hn : nNodes ≤ 2 ^ 31)
    (hrr : rrStart + nNodes ≤ 2 ^ 32) {s : SimpleInterconnect} {as : List IcntAct}
    {h : List IcntEvent} (hr : machine.run as (new nNodes latency rrStart) = some (s, h)) :
    ∃ g : List (Nat × Nat), s.cycle.2 = g.filterMap s.bring ∧
      (∀ p ∈ g, s.wants p.1 = some p.2) ∧ (g.map Prod.fst).Nodup ∧ (g.map Prod.snd).Nodup ∧
      ∀ src d, s.wants src = some d → d ∈ g.map Prod.snd := by
  obtain ⟨hs, -, -⟩ := run_sound hn hrr hr
  have hm := RoundRobin.grants_matching s.wants s.order s.busyNode
  have hnd : s.order.Nodup := by
    rw [hs.order_eq]
    exact RoundRobin.nodup_turns _ _
  refine ⟨_, hs.pass.events, hm.wanted, hm.sources.nodup hnd, hm.dests, ?_⟩
  intro src d hw
  have hsrc : src ∈ s.order := by
    rw [hs.order_eq, RoundRobin.mem_turns]
    refine Nat.lt_of_not_le fun hle => ?_
    simp [wants, hs.inside src hle] at hw
  rcases hm.maximal src hsrc d hw with hbusy | hd
  · rw [hs.idle d] at hbusy
    cases hbusy
  · exact hd

theorem cycle_matching_sample : ∃ s h, machine.run (icntSample.take 4) (new 3 1 7) = some (s, h) ∧
    ∃ g : List (Nat × Nat), s.cycle.2 = g.filterMap s.bring ∧
      (∀ p ∈ g, s.wants p.1 = some p.2) ∧ (g.map Prod.fst).Nodup ∧ (g.map Prod.snd).Nodup ∧
      ∀ src d, s.wants src = some d → d ∈ g.map Prod.snd :=
  have ⟨⟨s, h⟩, hr⟩ := Option.isSome_iff_exists.mp
    (rfl : (machine.run (icntSample.take 4) (new 3 1 7)).isSome = true)
  ⟨s, h, hr, cycle_matching (by decide) (by decide) hr⟩

/-! ## 6. A packet does not wait for ever -/

/-- How many cycles after the next one the front of a buffer may have to wait. -/
def wait (s : SimpleInterconnect) (src : Nat) : Nat :=
  match s.inBuffers src with
  | [] => 0
  | front :: _ =>
      if front.finishCycle ≤ s.cycles then
        RoundRobin.distance s.nNodes (s.rrStart % s.nNodes) src
      else front.finishCycle - s.cycles + (s.nNodes - 1)

theorem Sound.wait_lt {s : SimpleInterconnect} (hs : s.Sound) {src : Nat} (hsrc : src < s.nNodes) :
    s.wait src < s.latency + s.nNodes := by
  unfold wait
  split
  · omega
  · next front rest hq =>
      split
      · have hd := RoundRobin.distance_lt (s.rrStart % s.nNodes) hsrc
        omega
      · have hf := hs.front src front (by rw [hq]; rfl)
        omega

/-- The circle moves on by one. -/
theorem Sound.cycle_start {s : SimpleInterconnect} (hs : s.Sound) (hpos : 0 < s.nNodes) :
    s.cycle.1.rrStart % s.nNodes = (s.rrStart % s.nNodes + 1) % s.nNodes := by
  have hp := hs.pass
  have heq : s.cycle.1.rrStart = (s.rrStart + 1) % 2 ^ 32 % s.nNodes := by
    simp only [SimpleInterconnect.cycle, hp.nNodes, hp.rrStart]
  rw [heq, Nat.mod_mod, Nat.mod_add_mod]
  have hw := hs.wraps
  rcases Nat.lt_or_ge (s.rrStart + 1) (2 ^ 32) with h | h
  · rw [Nat.mod_eq_of_lt h]
  · have h1 : s.nNodes = 1 := by omega
    rw [h1, Nat.mod_one, Nat.mod_one]

/-- The front of a buffer leaves, or it waits for fewer cycles. -/
theorem Sound.cycle_wait {s : SimpleInterconnect} (hs : s.Sound) {src : Nat} {front : Entity}
    {rest : List Entity} (hq : s.inBuffers src = front :: rest) :
    (s.cycle.1.inBuffers src = rest ∧ s.cycle.1.wait src < s.nNodes) ∨
      (s.cycle.1.inBuffers src = front :: rest ∧ s.cycle.1.wait src + 1 ≤ s.wait src) := by
  have hsrc : src < s.nNodes := Nat.lt_of_not_le fun hle => by
    rw [hs.inside src hle] at hq
    cases hq
  have hp := hs.pass
  have hpos : 0 < s.nNodes := Nat.zero_lt_of_lt hsrc
  have hcyc : s.cycle.1.cycles = s.cycles + 1 := congrArg (· + 1) hp.cycles
  have hnew : s.cycle.1.nNodes = s.nNodes := hp.nNodes
  rcases hs.cycle_buffer src with hkeep | ⟨front', rest', hq', hdue, hgone⟩
  · refine .inr ⟨hkeep.trans hq, ?_⟩
    simp only [wait, hkeep, hq, hcyc, hnew, hs.cycle_start hpos]
    by_cases hdue : front.finishCycle ≤ s.cycles
    · rw [if_pos hdue, if_pos (by omega)]
      -- it was due and did not leave, so it was not the first to be asked
      refine (RoundRobin.distance_next (Nat.mod_lt _ hpos) hsrc ?_).le
      intro hfirst
      have hw : s.wants src = some front.dest := by simp [wants, hq, hdue]
      obtain ⟨others, ho⟩ := RoundRobin.turns_cons (Nat.mod_lt s.rrStart hpos)
      rw [RoundRobin.turns_mod, hfirst, ← hs.order_eq] at ho
      have hmem : src ∈ (RoundRobin.grants s.wants s.order s.busyNode).map Prod.fst := by
        rw [ho]
        exact List.mem_map_of_mem (RoundRobin.grants_first s.wants hw (hs.idle _))
      have hb : s.cycle.1.inBuffers src = _ := hp.buffers src
      rw [if_pos hmem] at hb
      have hlen := congrArg List.length (hb.symm.trans hkeep)
      simp [hq] at hlen
    · rw [if_neg hdue]
      split
      · have hd := RoundRobin.distance_lt ((s.rrStart % s.nNodes + 1) % s.nNodes) hsrc
        omega
      · omega
  · rw [hq] at hq'
    cases hq'
    refine .inl ⟨hgone, ?_⟩
    simp only [wait, hgone, hcyc, hnew]
    cases rest with
    | nil => exact hpos
    | cons next rest =>
        have hch := hs.spaced src
        rw [hq] at hch
        have hnext := (List.isChain_cons_cons.mp hch).1
        dsimp only
        rw [if_pos (by omega)]
        exact RoundRobin.distance_lt _ hsrc

/-- The acts that are cycles. -/
def isCycle : IcntAct → Bool
  | .cycle => true
  | _ => false

/-- The packet number `k` of those that come over from `src` is in its buffer, and comes over within
    some cycles. -/
def Awaited (src nNodes k : Nat) (s : SimpleInterconnect) (h : List IcntEvent) (n : Nat) : Prop :=
  s.Sound ∧ s.nNodes = nNodes ∧ ∃ j, (broughtFrom src h).length + j = k ∧
    j < (s.inBuffers src).length ∧ s.wait src + nNodes * j ≤ n

theorem awaited (src nNodes k : Nat) :
    Awaits machine isCycle (Awaited src nNodes k) fun h => k < (broughtFrom src h).length where
  kept h e hk := by
    rw [broughtFrom_append, List.length_append]
    omega
  step s h n a s' hP hst := by
    obtain ⟨hs, hn, j, hj, hlen, hle⟩ := hP
    obtain ⟨e, he, hobs⟩ := exec_of_step hst
    have hs' := exec_sound he hs
    have hmore : (broughtFrom src (h ++ e)).length =
        (broughtFrom src h).length + (broughtFrom src e).length := by
      rw [broughtFrom_append, List.length_append]
    rw [hobs]
    cases a with
    | push node dest access =>
        simp only [exec] at he
        split at he
        · cases he
          refine .inr ⟨n, ⟨hs', hn, j, by simpa [broughtFrom] using hj, ?_, ?_⟩, Nat.le_refl _⟩
          · by_cases hnode : src = node
            · subst hnode
              simp only [push, Function.update_self, List.length_append]
              omega
            · simpa [push, Function.update_of_ne hnode] using hlen
          · suffices hw : (s.push node dest access).wait src = s.wait src by rwa [hw]
            obtain ⟨front, rest, hq⟩ := List.exists_cons_of_length_pos (Nat.zero_lt_of_lt hlen)
            unfold wait
            by_cases hnode : src = node
            · subst hnode
              simp [push, hq]
            · have hkeep : (s.push node dest access).inBuffers src = s.inBuffers src :=
                Function.update_of_ne hnode _ _
              rw [hkeep]
              rfl
        · cases he
    | pop nid =>
        obtain ⟨access, -, heq⟩ := Option.map_eq_some_iff.mp he
        cases heq
        exact .inr ⟨n, ⟨hs', hn, j, by simpa [broughtFrom] using hj, hlen, hle⟩, Nat.le_refl _⟩
    | cycle =>
        have heq : s.cycle = (s', e) := Option.some.inj he
        obtain rfl : s' = s.cycle.1 := by rw [heq]
        obtain rfl : e = s.cycle.2 := by rw [heq]
        obtain ⟨front, rest, hq⟩ := List.exists_cons_of_length_pos (Nat.zero_lt_of_lt hlen)
        have hbal : s.underway src ++ sentFrom src s.cycle.2 =
            broughtFrom src s.cycle.2 ++ s.cycle.1.underway src :=
          (exec_balanced he).sources src
        have hsent : sentFrom src s.cycle.2 = [] := by
          have hev : s.cycle.2 = _ := hs.pass.events
          rw [hev]
          refine List.filterMap_eq_nil_iff.mpr fun ev hev => ?_
          obtain ⟨p, -, hp⟩ := List.mem_filterMap.mp hev
          obtain ⟨f, -, rfl⟩ := Option.map_eq_some_iff.mp hp
          rfl
        have hcount := congrArg List.length hbal
        simp only [hsent, List.length_append, List.length_nil, underway, List.length_map] at hcount
        have hnew : s.cycle.1.nNodes = nNodes := hs.pass.nNodes.trans hn
        rw [hq] at hlen hcount
        rw [List.length_cons] at hlen hcount
        rcases hs.cycle_wait hq with ⟨hgone, hwait⟩ | ⟨hkeep, hwait⟩
        · rw [hgone] at hcount
          cases j with
          | zero => exact .inl (by omega)
          | succ j =>
              refine .inr ⟨s.cycle.1.wait src + nNodes * j,
                ⟨hs', hnew, j, by omega, by rw [hgone]; omega, Nat.le_refl _⟩, ?_⟩
              rw [Nat.mul_succ] at hle
              simp only [isCycle, Bool.toNat_true]
              omega
        · rw [hkeep, List.length_cons] at hcount
          refine .inr ⟨s.cycle.1.wait src + nNodes * j,
            ⟨hs', hnew, j, by omega, by rw [hkeep, List.length_cons]; omega, Nat.le_refl _⟩, ?_⟩
          simp only [isCycle, Bool.toNat_true]
          omega

/-- **A packet arrives within a bound**: with `k` packets ahead of it in its buffer, it is brought
    over within `latency + nNodes * (k + 1)` cycles, whatever is sent and taken meanwhile, and its
    place in the order is its own. -/
theorem arrives_within {nNodes latency rrStart : Nat} (hn : nNodes ≤ 2 ^ 31)
    (hrr : rrStart + nNodes ≤ 2 ^ 32) {s t : SimpleInterconnect} {as bs : List IcntAct}
    {h e : List IcntEvent} (hr : machine.run as (new nNodes latency rrStart) = some (s, h))
    (hr' : machine.run bs s = some (t, e)) {src k : Nat} {p : Nat × MemoryAccess}
    (hp : (s.underway src)[k]? = some p)
    (hlong : latency + nNodes * (k + 1) ≤ ticks isCycle bs) :
    (broughtFrom src e)[k]? = some p := by
  obtain ⟨hs, hnodes, hlat⟩ := run_sound hn hrr hr
  have hbal := (exec_run_balanced (exec_of_run hr')).sources src
  have hk : k < (s.inBuffers src).length := by
    have hlt := (List.getElem?_eq_some_iff.mp hp).1
    rwa [underway, List.length_map] at hlt
  have hsrc : src < s.nNodes := Nat.lt_of_not_le fun hle => by
    rw [hs.inside src hle] at hk
    cases hk
  have hwait := hs.wait_lt hsrc
  have hcame : k < (broughtFrom src ([] ++ e)).length := by
    refine (awaited src nNodes k).within (n := s.wait src + nNodes * k)
      ⟨hs, hnodes, k, by simp [broughtFrom], hk, Nat.le_refl _⟩ hr' ?_
    rw [Nat.mul_succ] at hlong
    omega
  -- what came over and what is underway is what was underway and what was sent
  calc (broughtFrom src e)[k]?
      = (broughtFrom src e ++ t.underway src)[k]? := (List.getElem?_append_left hcame).symm
    _ = (s.underway src ++ sentFrom src e)[k]? := by rw [← hbal]
    _ = some p := by
        rw [List.getElem?_append_left (List.getElem?_eq_some_iff.mp hp).1]
        exact hp

theorem arrives_within_sample : ∃ s h t e p,
    machine.run (icntSample.take 3) (new 3 1 7) = some (s, h) ∧
      machine.run (List.replicate 7 .cycle) s = some (t, e) ∧
      (s.underway 0)[1]? = some p ∧ (broughtFrom 0 e)[1]? = some p := by
  refine ⟨_, _, _, _, _, rfl, rfl, rfl, ?_⟩
  exact @arrives_within 3 1 7 (by decide) (by decide) _ _ (icntSample.take 3)
    (List.replicate 7 .cycle) _ _ rfl rfl 0 1 _ rfl (by decide)

end SimpleInterconnect

end Ahasd
