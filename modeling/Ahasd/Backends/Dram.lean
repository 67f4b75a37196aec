/-
  File:      Ahasd/Backends/Dram.lean
  Subject:   THE SIMPLE DRAM: `SimpleDram` of `Dram.cc`.

  A channel has a queue of requests that wait, each with the cycle it is done at, and a queue of
  responses. A request is done after the latency, and never before the request made last
  (`lastFinishCycle`, which the constructor does not set: a run starts with any value). A cycle
  takes one request of each channel over to the responses.

  * `schedule`: when the requests of a channel ought to be answered, by the cycles they came at:
    after the latency, one a cycle, in order;
  * **`run_answers`**: they are answered in exactly these cycles.
-/
import Ahasd.PIMBackend
import Ahasd.Lib.Transition

namespace Ahasd

open Transition

/-! ## 1. The state and its operations -/

/-- `SimpleDram`. -/
structure SimpleDram where
  nCh : Nat
  latency : Nat
  cycles : Nat := 0
  lastFinishCycle : Nat
  waitingQueue : Nat → List (Nat × MemoryAccess) := fun _ => []
  responseQueue : Nat → List MemoryAccess := fun _ => []

/-- What a step of the DRAM shows, with the channel and the cycle. -/
inductive DramEvent where
  | queued (cid cycle : Nat) (access : MemoryAccess)
  | answered (cid cycle : Nat) (access : MemoryAccess)
  | popped (cid : Nat) (access : MemoryAccess)
  deriving DecidableEq

namespace SimpleDram

/-- The cycle a request made now is done at. -/
def finishOf (d : SimpleDram) : Nat := max (d.cycles + d.latency) d.lastFinishCycle

/-- `push`: the request turns into its response. -/
def push (cid : Nat) (request : MemoryAccess) (d : SimpleDram) : SimpleDram :=
  { d with
    lastFinishCycle := d.finishOf
    waitingQueue := Function.update d.waitingQueue cid
      (d.waitingQueue cid ++ [(d.finishOf, { request with request := false })]) }

/-- `is_full`. -/
def isFull (_ : SimpleDram) (_ : Nat) (_ : MemoryAccess) : Bool := false

/-- `is_empty`. -/
def isEmpty (d : SimpleDram) (cid : Nat) : Bool := (d.responseQueue cid).isEmpty

/-- `top`. -/
def top (d : SimpleDram) (cid : Nat) : Option MemoryAccess := (d.responseQueue cid).head?

/-- `pop`. -/
def pop (cid : Nat) (d : SimpleDram) : SimpleDram :=
  { d with
    responseQueue := Function.update d.responseQueue cid (d.responseQueue cid).tail }

/-- A channel's turn in `cycle`. -/
def serve (ch : Nat) (d : SimpleDram) : SimpleDram × List DramEvent :=
  match d.waitingQueue ch with
  | [] => (d, [])
  | (finish, access) :: rest =>
      if finish ≤ d.cycles then
        ({ d with
            waitingQueue := Function.update d.waitingQueue ch rest
            responseQueue := Function.update d.responseQueue ch (d.responseQueue ch ++ [access]) },
          [.answered ch d.cycles access])
      else (d, [])

/-- The turns of several channels. -/
def serveAll : List Nat → SimpleDram → SimpleDram × List DramEvent
  | [], d => (d, [])
  | ch :: chs, d =>
      let r := d.serve ch
      let r' := serveAll chs r.1
      (r'.1, r.2 ++ r'.2)

/-- `cycle`. -/
def cycle (d : SimpleDram) : SimpleDram × List DramEvent :=
  let r := serveAll (List.range d.nCh) d
  ({ r.1 with cycles := r.1.cycles + 1 }, r.2)

end SimpleDram

/-- What is done to the DRAM. -/
inductive DramAct where
  | push (cid : Nat) (request : MemoryAccess)
  | cycle
  | pop (cid : Nat)

namespace SimpleDram

/-- One act, with what it shows. A channel out of range and a pop of an empty queue are errors. -/
def exec (d : SimpleDram) : DramAct → Option (SimpleDram × List DramEvent)
  | .push cid request =>
      if cid < d.nCh then
        some (d.push cid request, [.queued cid d.cycles { request with request := false }])
      else none
  | .cycle => some d.cycle
  | .pop cid => (d.top cid).map fun access => (d.pop cid, [.popped cid access])

/-- The DRAM as a machine. -/
def machine : Machine SimpleDram DramAct DramEvent where
  step d a := (d.exec a).map Prod.fst
  obs d a _ := ((d.exec a).map Prod.snd).getD []

/-- The constructor; `lastFinishCycle` is what the memory held. -/
def new (nCh latency lastFinishCycle : Nat) : SimpleDram where
  nCh := nCh
  latency := latency
  lastFinishCycle := lastFinishCycle

/-- A step is an act, and shows what the act shows. -/
theorem exec_of_step {d d' : SimpleDram} {a : DramAct} (hs : machine.step d a = some d') :
    ∃ e, d.exec a = some (d', e) ∧ machine.obs d a d' = e := by
  obtain ⟨⟨t, e⟩, he, rfl⟩ := Option.map_eq_some_iff.mp hs
  exact ⟨e, he, by simp only [machine, he]; rfl⟩

end SimpleDram

/-! ## 2. What a history holds -/

/-- The requests of a channel, with the cycles they came at. -/
def queuedAt (cid : Nat) (h : List DramEvent) : List (Nat × MemoryAccess) :=
  h.filterMap fun
    | .queued c cycle access => if c = cid then some (cycle, access) else none
    | _ => none

/-- The answers of a channel, with the cycles they came in. -/
def answeredAt (cid : Nat) (h : List DramEvent) : List (Nat × MemoryAccess) :=
  h.filterMap fun
    | .answered c cycle access => if c = cid then some (cycle, access) else none
    | _ => none

/-- The responses taken from a channel. -/
def responsesTaken (cid : Nat) (h : List DramEvent) : List MemoryAccess :=
  h.filterMap fun
    | .popped c access => if c = cid then some access else none
    | _ => none

section History

variable (cid : Nat) (h e : List DramEvent)

@[simp] theorem queuedAt_append : queuedAt cid (h ++ e) = queuedAt cid h ++ queuedAt cid e :=
  List.filterMap_append

@[simp] theorem answeredAt_append :
    answeredAt cid (h ++ e) = answeredAt cid h ++ answeredAt cid e :=
  List.filterMap_append

@[simp] theorem responsesTaken_append :
    responsesTaken cid (h ++ e) = responsesTaken cid h ++ responsesTaken cid e :=
  List.filterMap_append

end History

/-! ## 3. The schedule -/

/-- The cycles the requests of a queue are answered in, where `free` is the first the channel has:
    a request is answered when it is done and the channel is free, one a cycle. -/
def drain : Nat → List (Nat × MemoryAccess) → List (Nat × MemoryAccess)
  | _, [] => []
  | free, (finish, access) :: q => (max finish free, access) :: drain (max finish free + 1) q

/-- When the requests of a channel ought to be answered, by the cycles they came at: after the
    latency, not before the cycle `first`, one a cycle, in order. -/
def schedule (latency first : Nat) (requests : List (Nat × MemoryAccess)) :
    List (Nat × MemoryAccess) :=
  drain 0 (requests.map fun r => (max (r.1 + latency) first, r.2))

/-- The first cycle a channel has after these answers, if it had `free` before them. -/
def nextFree (free : Nat) (answers : List (Nat × MemoryAccess)) : Nat :=
  (answers.getLast?.map fun last => last.1 + 1).getD free

theorem nextFree_append (free : Nat) (a b : List (Nat × MemoryAccess)) :
    nextFree free (a ++ b) = nextFree (nextFree free a) b := by
  unfold nextFree
  rw [List.getLast?_append]
  cases b.getLast? <;> rfl

theorem nextFree_cons (free : Nat) (r : Nat × MemoryAccess) (b : List (Nat × MemoryAccess)) :
    nextFree free (r :: b) = nextFree (r.1 + 1) b :=
  nextFree_append free [r] b

/-- A queue is drained piece by piece. -/
theorem drain_append : ∀ (p q : List (Nat × MemoryAccess)) (free : Nat),
    drain free (p ++ q) = drain free p ++ drain (nextFree free (drain free p)) q := by
  intro p
  induction p with
  | nil => exact fun _ _ => rfl
  | cons r p ih =>
      intro q free
      simp only [List.cons_append, drain, ih, nextFree_cons]

/-- No answer comes before the channel is free. -/
theorem le_of_mem_drain : ∀ {q : List (Nat × MemoryAccess)} {free : Nat} {r : Nat × MemoryAccess},
    r ∈ drain free q → free ≤ r.1 := by
  intro q
  induction q with
  | nil => exact fun h => nomatch h
  | cons e q ih =>
      intro free r h
      rcases List.mem_cons.mp h with rfl | h
      · exact le_max_right _ _
      · have hle := ih h
        have hmax := le_max_right e.1 free
        omega

/-! ## 4. What a cycle does -/

/-- What a cycle answers of a queue, and what it leaves. -/
def answerOf (now : Nat) : List (Nat × MemoryAccess) →
    List (Nat × MemoryAccess) × List (Nat × MemoryAccess)
  | [] => ([], [])
  | (finish, access) :: rest =>
      if finish ≤ now then ([(now, access)], rest) else ([], (finish, access) :: rest)

/-- A cycle answers what is scheduled for it. -/
theorem answerOf_spec {now free : Nat} {q : List (Nat × MemoryAccess)} (hfree : free ≤ now)
    (hq : ∀ r ∈ drain free q, now ≤ r.1) :
    drain free q = (answerOf now q).1 ++ drain (nextFree free (answerOf now q).1) (answerOf now q).2 ∧
      (∀ r ∈ (answerOf now q).1, r.1 = now) ∧
      ∀ r ∈ drain (nextFree free (answerOf now q).1) (answerOf now q).2, now + 1 ≤ r.1 := by
  cases q with
  | nil => exact ⟨rfl, fun r hr => (nomatch hr), fun r hr => (nomatch hr)⟩
  | cons e rest =>
      obtain ⟨finish, access⟩ := e
      have hT : now ≤ max finish free := hq (max finish free, access) List.mem_cons_self
      by_cases hdue : finish ≤ now
      · -- it is due, and the channel is free: it is answered now
        have hans : answerOf now ((finish, access) :: rest) = ([(now, access)], rest) :=
          if_pos hdue
        have heq : max finish free = now := by omega
        have hdrain : drain free ((finish, access) :: rest) =
            (now, access) :: drain (now + 1) rest := by
          simp only [drain, heq]
        rw [hans]
        refine ⟨hdrain, fun r hr => ?_, fun r hr => le_of_mem_drain hr⟩
        rw [List.mem_singleton.mp hr]
      · have hans : answerOf now ((finish, access) :: rest) = ([], (finish, access) :: rest) :=
          if_neg hdue
        rw [hans]
        refine ⟨rfl, fun r hr => (nomatch hr), fun r hr => ?_⟩
        have hlate : now + 1 ≤ max finish free := by omega
        rcases List.mem_cons.mp hr with rfl | hr
        · exact hlate
        · have hle := le_of_mem_drain hr
          omega

namespace SimpleDram

/-- The turns of some channels: each of them answers what is due. -/
structure Pass (chs : List Nat) (d : SimpleDram) (r : SimpleDram × List DramEvent) : Prop where
  answers : ∀ ch, answeredAt ch r.2 =
    if ch ∈ chs then (answerOf d.cycles (d.waitingQueue ch)).1 else []
  waiting : ∀ ch, r.1.waitingQueue ch =
    if ch ∈ chs then (answerOf d.cycles (d.waitingQueue ch)).2 else d.waitingQueue ch
  responses : ∀ ch, r.1.responseQueue ch =
    d.responseQueue ch ++ (answeredAt ch r.2).map Prod.snd
  queued : ∀ ch, queuedAt ch r.2 = []
  taken : ∀ ch, responsesTaken ch r.2 = []
  nCh : r.1.nCh = d.nCh
  latency : r.1.latency = d.latency
  cycles : r.1.cycles = d.cycles
  last : r.1.lastFinishCycle = d.lastFinishCycle

theorem serve_pass (ch : Nat) (d : SimpleDram) : Pass [ch] d (d.serve ch) := by
  have hnil : Pass [] d (d, []) :=
    ⟨by simp [answeredAt], by simp, by simp [answeredAt], by simp [queuedAt],
      by simp [responsesTaken], rfl, rfl, rfl, rfl⟩
  -- nothing due
  have hstill : answerOf d.cycles (d.waitingQueue ch) = ([], d.waitingQueue ch) →
      Pass [ch] d (d, []) := by
    intro h
    refine { hnil with answers := fun k => ?_, waiting := fun k => ?_ }
    · by_cases hk : k = ch
      · subst hk
        simp [h, answeredAt]
      · simp [hk, answeredAt]
    · by_cases hk : k = ch
      · subst hk
        simp [h]
      · simp [hk]
  unfold serve
  split
  · next hq => exact hstill (by rw [hq]; rfl)
  · next finish access rest hq =>
      split
      · next hdue =>
          refine ⟨fun k => ?_, fun k => ?_, fun k => ?_, ?_, ?_, rfl, rfl, rfl, rfl⟩
          · by_cases hk : k = ch
            · subst hk
              simp [answeredAt, answerOf, hq, hdue]
            · simp [answeredAt, hk, Ne.symm hk]
          · by_cases hk : k = ch
            · subst hk
              simp [answerOf, hq, hdue]
            · simp [hk]
          · by_cases hk : k = ch
            · subst hk
              simp [answeredAt]
            · simp [answeredAt, Function.update_of_ne hk, Ne.symm hk]
          · simp [queuedAt]
          · simp [responsesTaken]
      · next hdue => exact hstill (by rw [hq, answerOf, if_neg hdue])

theorem serveAll_pass : ∀ (chs : List Nat) (d : SimpleDram), chs.Nodup →
    Pass chs d (serveAll chs d) := by
  intro chs
  induction chs with
  | nil =>
      intro d _
      exact ⟨by simp [serveAll, answeredAt], by simp [serveAll], by simp [serveAll, answeredAt],
        by simp [serveAll, queuedAt], by simp [serveAll, responsesTaken], rfl, rfl, rfl, rfl⟩
  | cons c chs ih =>
      intro d hnd
      obtain ⟨hnot, hnd⟩ := List.nodup_cons.mp hnd
      obtain ⟨a1, w1, r1, q1, t1, n1, l1, c1, f1⟩ := serve_pass c d
      obtain ⟨a2, w2, r2, q2, t2, n2, l2, c2, f2⟩ := ih (d.serve c).1 hnd
      refine ⟨fun k => ?_, fun k => ?_, fun k => ?_, fun k => ?_, fun k => ?_, n2.trans n1,
        l2.trans l1, c2.trans c1, f2.trans f1⟩
      · simp only [serveAll, answeredAt_append, a1, a2, c1, w1]
        by_cases hk : k = c
        · subst hk
          simp [hnot]
        · simp [hk]
      · simp only [serveAll, w2, c1, w1]
        by_cases hk : k = c
        · subst hk
          simp [hnot]
        · simp [hk]
      · simp only [serveAll, r2, r1, answeredAt_append, List.map_append, List.append_assoc]
      · simp only [serveAll, queuedAt_append, q1, q2, List.append_nil]
      · simp only [serveAll, responsesTaken_append, t1, t2, List.append_nil]

/-! ## 5. The invariant of a run -/

/-- What the channels have answered and what waits are the schedule of what came: what was answered
    was answered before now, what waits is answered from now on. -/
structure OnSchedule (nCh latency first : Nat) (d : SimpleDram) (h : List DramEvent) : Prop where
  split : ∀ ch, schedule latency first (queuedAt ch h) =
    answeredAt ch h ++ drain (nextFree 0 (answeredAt ch h)) (d.waitingQueue ch)
  past : ∀ ch, ∀ r ∈ answeredAt ch h, r.1 < d.cycles
  future : ∀ ch, ∀ r ∈ drain (nextFree 0 (answeredAt ch h)) (d.waitingQueue ch), d.cycles ≤ r.1
  inside : ∀ ch, nCh ≤ ch → d.waitingQueue ch = []
  responses : ∀ ch,
    (answeredAt ch h).map Prod.snd = responsesTaken ch h ++ d.responseQueue ch
  finish : d.finishOf = max (d.cycles + latency) first
  nCh : d.nCh = nCh
  latency : d.latency = latency

theorem new_onSchedule (nCh latency first : Nat) :
    OnSchedule nCh latency first (new nCh latency first) [] :=
  ⟨fun _ => rfl, fun _ _ h => (nomatch h), fun _ _ h => (nomatch h), fun _ _ => rfl, fun _ => rfl,
    rfl, rfl, rfl⟩

/-- The channel is free at the latest now. -/
theorem nextFree_le {answers : List (Nat × MemoryAccess)} {now : Nat}
    (h : ∀ r ∈ answers, r.1 < now) : nextFree 0 answers ≤ now := by
  unfold nextFree
  cases hl : answers.getLast? with
  | none => exact Nat.zero_le _
  | some r => exact h r (List.mem_of_getLast? hl)

variable {nCh latency first : Nat} {d : SimpleDram} {h : List DramEvent}

/-- A request is put behind the others of its channel. -/
theorem OnSchedule.push (hd : OnSchedule nCh latency first d h) {cid : Nat} (hcid : cid < nCh)
    (request : MemoryAccess) :
    OnSchedule nCh latency first (d.push cid request)
      (h ++ [.queued cid d.cycles { request with request := false }]) := by
  set access := { request with request := false } with haccess
  have hans : ∀ ch, answeredAt ch (h ++ [.queued cid d.cycles access]) = answeredAt ch h :=
    fun ch => by simp [answeredAt]
  -- the queue of the channel
  have hown : (d.push cid request).waitingQueue cid =
      d.waitingQueue cid ++ [(max (d.cycles + latency) first, access)] := by
    simp [SimpleDram.push, hd.finish, haccess]
  have hother : ∀ ch, ch ≠ cid → (d.push cid request).waitingQueue ch = d.waitingQueue ch :=
    fun ch hch => Function.update_of_ne hch _ _
  refine ⟨?_, ?_, ?_, ?_, ?_, ?_, hd.nCh, hd.latency⟩
  · intro ch
    rw [hans]
    by_cases hch : ch = cid
    · subst hch
      have hq : queuedAt ch (h ++ [.queued ch d.cycles access]) =
          queuedAt ch h ++ [(d.cycles, access)] := by
        simp [queuedAt]
      have hs := hd.split ch
      unfold schedule at hs ⊢
      rw [hq, List.map_append, drain_append, hs, hown, drain_append, nextFree_append]
      exact List.append_assoc _ _ _
    · have hq : queuedAt ch (h ++ [.queued cid d.cycles access]) = queuedAt ch h := by
        simp [queuedAt, Ne.symm hch]
      rw [hq, hother ch hch]
      exact hd.split ch
  · intro ch
    rw [hans]
    exact hd.past ch
  · intro ch r hr
    rw [hans] at hr
    by_cases hch : ch = cid
    · subst hch
      rw [hown, drain_append] at hr
      rcases List.mem_append.mp hr with hr | hr
      · exact hd.future ch r hr
      · obtain rfl := List.mem_singleton.mp hr
        change d.cycles ≤ max (max (d.cycles + latency) first) _
        simp only [le_max_iff]
        omega
    · rw [hother ch hch] at hr
      exact hd.future ch r hr
  · intro ch hch
    rw [hother ch (by omega)]
    exact hd.inside ch hch
  · intro ch
    rw [hans, hd.responses ch]
    simp [responsesTaken, SimpleDram.push]
  · simp only [SimpleDram.push, finishOf, hd.latency]
    have hf := hd.finish
    unfold finishOf at hf
    rw [hd.latency] at hf
    rw [hf, ← max_assoc, max_self]

/-- A response is taken. -/
theorem OnSchedule.pop (hd : OnSchedule nCh latency first d h) {cid : Nat} {access : MemoryAccess}
    (ht : d.top cid = some access) :
    OnSchedule nCh latency first (d.pop cid) (h ++ [.popped cid access]) := by
  have hans : ∀ ch, answeredAt ch (h ++ [.popped cid access]) = answeredAt ch h :=
    fun ch => by simp [answeredAt]
  have hq : ∀ ch, queuedAt ch (h ++ [.popped cid access]) = queuedAt ch h :=
    fun ch => by simp [queuedAt]
  refine ⟨?_, ?_, ?_, hd.inside, ?_, hd.finish, hd.nCh, hd.latency⟩
  · intro ch
    rw [hans, hq]
    exact hd.split ch
  · intro ch
    rw [hans]
    exact hd.past ch
  · intro ch
    rw [hans]
    exact hd.future ch
  · intro ch
    rw [hans, hd.responses ch]
    by_cases hch : ch = cid
    · subst hch
      obtain ⟨rest, hrest⟩ := List.head?_eq_some_iff.mp ht
      simp [SimpleDram.pop, responsesTaken, hrest]
    · simp [SimpleDram.pop, responsesTaken, hch, Ne.symm hch]

/-- What is due now is answered now. -/
theorem OnSchedule.cycle (hd : OnSchedule nCh latency first d h) :
    OnSchedule nCh latency first d.cycle.1 (h ++ d.cycle.2) := by
  obtain ⟨hans, hwait, hresp, hqueued, htaken, hn, hlat, hcyc, hlast⟩ :=
    serveAll_pass (List.range d.nCh) d List.nodup_range
  have hcycles : d.cycle.1.cycles = d.cycles + 1 := congrArg (· + 1) hcyc
  -- a channel out of range has nothing that waits
  have hanswer : ∀ ch, answeredAt ch d.cycle.2 = (answerOf d.cycles (d.waitingQueue ch)).1 ∧
      d.cycle.1.waitingQueue ch = (answerOf d.cycles (d.waitingQueue ch)).2 := by
    intro ch
    have ha : answeredAt ch d.cycle.2 = _ := hans ch
    have hw : d.cycle.1.waitingQueue ch = _ := hwait ch
    rw [ha, hw]
    by_cases hch : ch < d.nCh
    · simp [hch]
    · have hout := hd.inside ch (by rw [← hd.nCh]; omega)
      simp [hch, hout, answerOf]
  have hpast : ∀ ch, nextFree 0 (answeredAt ch h) ≤ d.cycles := fun ch => nextFree_le (hd.past ch)
  refine ⟨?_, ?_, ?_, ?_, ?_, ?_, hn.trans hd.nCh, hlat.trans hd.latency⟩
  · intro ch
    have hq : queuedAt ch d.cycle.2 = [] := hqueued ch
    obtain ⟨hsplit, -, -⟩ := answerOf_spec (hpast ch) (hd.future ch)
    rw [queuedAt_append, hq, List.append_nil, answeredAt_append, (hanswer ch).1, (hanswer ch).2,
      hd.split ch, nextFree_append, List.append_assoc, ← hsplit]
  · intro ch r hr
    obtain ⟨-, hnow, -⟩ := answerOf_spec (hpast ch) (hd.future ch)
    rw [answeredAt_append, (hanswer ch).1] at hr
    rw [hcycles]
    rcases List.mem_append.mp hr with hr | hr
    · exact Nat.lt_succ_of_lt (hd.past ch r hr)
    · rw [hnow r hr]
      exact Nat.lt_succ_self _
  · intro ch r hr
    obtain ⟨-, -, hlater⟩ := answerOf_spec (hpast ch) (hd.future ch)
    rw [answeredAt_append, nextFree_append, (hanswer ch).1, (hanswer ch).2] at hr
    rw [hcycles]
    exact hlater r hr
  · intro ch hch
    rw [(hanswer ch).2, hd.inside ch hch]
    rfl
  · intro ch
    have ht : responsesTaken ch d.cycle.2 = [] := htaken ch
    have hr : d.cycle.1.responseQueue ch = _ := hresp ch
    rw [answeredAt_append, List.map_append, hd.responses ch, responsesTaken_append, ht, hr,
      List.append_nil, List.append_assoc]
    rfl
  · have hf := hd.finish
    unfold finishOf at hf ⊢
    have hl : d.cycle.1.lastFinishCycle = d.lastFinishCycle := hlast
    have hl' : d.cycle.1.latency = d.latency := hlat
    rw [hcycles, hl, hl', hd.latency]
    rw [hd.latency] at hf
    -- both sides are the maximum with what was the maximum before
    omega

theorem exec_onSchedule {d' : SimpleDram} {a : DramAct} {e : List DramEvent}
    (he : d.exec a = some (d', e)) (hd : OnSchedule nCh latency first d h) :
    OnSchedule nCh latency first d' (h ++ e) := by
  cases a with
  | push cid request =>
      simp only [exec] at he
      split at he
      · next hcid =>
          cases he
          exact hd.push (by rw [← hd.nCh]; exact hcid) request
      · cases he
  | cycle =>
      cases he
      exact hd.cycle
  | pop cid =>
      obtain ⟨access, ht, heq⟩ := Option.map_eq_some_iff.mp he
      cases heq
      exact hd.pop ht

theorem run_onSchedule {as : List DramAct}
    (hr : machine.run as (new nCh latency first) = some (d, h)) :
    OnSchedule nCh latency first d h := by
  refine (exec_of_run hr).invariant (P := OnSchedule nCh latency first)
    (new_onSchedule nCh latency first) ?_
  intro d h a d' hd hs
  obtain ⟨e, he, hobs⟩ := exec_of_step hs
  rw [hobs]
  exact exec_onSchedule he hd

/-- **The requests of a channel are answered in exactly the cycles of the schedule**: what has been
    answered is what the schedule puts before now, and the responses are taken in that order. -/
theorem run_answers {as : List DramAct}
    (hr : machine.run as (new nCh latency first) = some (d, h)) (ch : Nat) :
    answeredAt ch h =
        (schedule latency first (queuedAt ch h)).takeWhile (fun r => decide (r.1 < d.cycles)) ∧
      (answeredAt ch h).map Prod.snd = responsesTaken ch h ++ d.responseQueue ch := by
  have hd := run_onSchedule hr
  refine ⟨?_, hd.responses ch⟩
  rw [hd.split ch, List.takeWhile_append_of_pos fun r hr => decide_eq_true (hd.past ch r hr)]
  -- the rest of the schedule is not before now
  suffices hrest : (drain (nextFree 0 (answeredAt ch h)) (d.waitingQueue ch)).takeWhile
      (fun r => decide (r.1 < d.cycles)) = [] by
    rw [hrest, List.append_nil]
  cases hq : drain (nextFree 0 (answeredAt ch h)) (d.waitingQueue ch) with
  | nil => rfl
  | cons r rest =>
      have hle := hd.future ch r (by rw [hq]; exact List.mem_cons_self)
      exact List.takeWhile_cons_of_neg (by simpa using hle)

/-- Three requests to one channel, the last of them later, and one to another. -/
def dramSample : List DramAct :=
  let access : MemoryAccess :=
    { id := 0, dramAddress := 0, size := 32, write := false, request := true, coreId := 0 }
  [.push 0 access, .push 0 { access with id := 1 }, .push 1 { access with id := 2 }, .cycle, .cycle,
    .cycle, .pop 0, .cycle, .push 0 { access with id := 3 }, .cycle]

theorem run_answers_sample : ∃ d h, machine.run dramSample (new 2 2 0) = some (d, h) ∧
    answeredAt 0 h =
        (schedule 2 0 (queuedAt 0 h)).takeWhile (fun r => decide (r.1 < d.cycles)) ∧
      (answeredAt 0 h).map Prod.snd = responsesTaken 0 h ++ d.responseQueue 0 :=
  have ⟨⟨d, h⟩, hr⟩ := Option.isSome_iff_exists.mp
    (rfl : (machine.run dramSample (new 2 2 0)).isSome = true)
  ⟨d, h, hr, run_answers hr 0⟩

end SimpleDram

end Ahasd
