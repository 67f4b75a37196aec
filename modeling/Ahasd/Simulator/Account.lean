/-
  File:      Ahasd/Simulator/Account.lean
  Subject:   THE ACCOUNT OF THE REQUESTS: what the history of the transfers says of the places and
             of the cores.

  The memory side is a token flow: the requests are the tokens, the transfers the moves. The rules
  of Transfers.lean keep an invariant (`Account`) of a state and its history:

  * the transfers lead to the contents of the places (`flow`), along the routes (`routes`);
  * no two requests have the same id (`fresh`, `unique`);
  * a core counts its outstanding writes (`waiting`) and keeps the slot of an outstanding load
    (`loads`), one for each id (`loadIds`).

  `Rule.account` is the step, `MemorySetup.account` the run.
-/
import Ahasd.Lib.TokenFlow
import Ahasd.Simulator.Transfers
import Mathlib.Data.List.Nodup

namespace Ahasd

open Transition TokenFlow

/-! ## 1. Transfers as moves -/

/-- The move a transfer is. -/
def Transfer.move (v : Transfer) : Move Place MemoryAccess := ⟨v.access, v.src, v.dst⟩

/-- A history of transfers as moves. -/
def moves (h : List Transfer) : List (Move Place MemoryAccess) := h.map Transfer.move

theorem moves_append (h e : List Transfer) : moves (h ++ e) = moves h ++ moves e :=
  List.map_append

/-- The transfer follows a route: between two places, into a request queue, or out of the
    interconnect at its core. -/
structure Transfer.Routed (v : Transfer) : Prop where
  between : ∀ p q, v.src = some p → v.dst = some q → p.Leads q = true
  made : v.src = none → v.dst = some (.requestQueue v.access.coreId)
  done : v.dst = none → v.src = some (.coreOutput v.access.coreId)
  back : ∀ c, v.dst = some (.toCore c) → c = v.access.coreId

namespace Simulator

variable {s s' : Simulator} {h : List Transfer}

/-- How many of each request each place holds. -/
def marking (s : Simulator) : Marking Place MemoryAccess :=
  fun p access => ((s.contents p).map MemoryAccess.identity).count access

theorem marking_eq (hp : ∀ p, (s'.contents p).Perm (s.contents p)) : s'.marking = s.marking := by
  funext p access
  exact ((hp p).map _).count_eq access

theorem marking_pos {p : Place} {access : MemoryAccess} (hmem : access ∈ s.contents p) :
    0 < s.marking p access.identity :=
  List.count_pos_iff.mpr (List.mem_map_of_mem hmem)

/-- A carried request is a firing. -/
theorem Carried.fires {access access' : MemoryAccess} {src dst : Option Place}
    (hc : Carried s s' access access' src dst) (hp : src ≠ none ∨ dst ≠ none) :
    Fires s.marking ⟨access.identity, src, dst⟩ s'.marking where
  proper := hp
  present p hsrc := marking_pos ((hc.took p hsrc).mem_iff.mpr List.mem_cons_self)
  balance p t := by
    have hcons : ∀ (x : MemoryAccess) (l : List MemoryAccess),
        ((x :: l).map MemoryAccess.identity).count t =
          (l.map MemoryAccess.identity).count t + if x.identity = t then 1 else 0 := by
      intro x l
      rw [List.map_cons, List.count_cons]
      simp only [beq_iff_eq]
    unfold marking
    by_cases hsrc : src = some p
    · have hdst : dst ≠ some p := fun heq => hc.ne (hsrc.trans heq.symm)
      rw [((hc.took p hsrc).map _).count_eq t, hcons]
      simp [hsrc, hdst]
    · by_cases hdst : dst = some p
      · rw [((hc.put p hdst).map _).count_eq t, hcons, hc.same]
        simp [hsrc, hdst]
      · rw [((hc.other p hsrc hdst).map _).count_eq t]
        simp [hsrc, hdst]

/-- The requests that were made, and those that were answered, in order. -/
def made (h : List Transfer) : List MemoryAccess := enteringTokens anywhere (moves h)

@[inherit_doc made]
def answered (h : List Transfer) : List MemoryAccess := leavingTokens anywhere (moves h)

/-- A write of a core. -/
def writeOf (coreId : Nat) (access : MemoryAccess) : Bool :=
  access.write && access.coreId == coreId

/-- **The account of the requests.** -/
structure Account (s : Simulator) (h : List Transfer) : Prop where
  shape : Shape s
  flow : Flow (moves h) s.marking
  routes : ∀ v ∈ h, v.Routed
  fresh : ∀ access ∈ made h, access.id < s.memAccessIds
  unique : ((made h).map MemoryAccess.id).Nodup
  waiting : ∀ c, (s.cores c).waitingWriteReqs + (answered h).countP (writeOf c) =
    (made h).countP (writeOf c)
  loads : ∀ access, (made h).count access = (answered h).count access + 1 →
    access.write = false → ∃ slot, (slot, access.id) ∈ (s.cores access.coreId).loads
  loadIds : ∀ c, ((s.cores c).loads.map Prod.snd).Nodup ∧
    ∀ l ∈ (s.cores c).loads, l.2 < s.memAccessIds

theorem Account.distinct (ha : Account s h) : Distinct (moves h) :=
  fun t => List.nodup_iff_count_le_one.mp (List.Nodup.of_map _ ha.unique) t

/-! ## 2. The rules keep the account -/

theorem made_snoc (h : List Transfer) (v : Transfer) :
    made (h ++ [v]) = made h ++ if v.move.entering anywhere = true then [v.access] else [] := by
  unfold made
  rw [moves_append]
  exact enteringTokens_snoc _ _ _

theorem answered_snoc (h : List Transfer) (v : Transfer) :
    answered (h ++ [v]) = answered h ++ if v.move.leaving anywhere = true then [v.access] else [] := by
  unfold answered
  rw [moves_append]
  exact leavingTokens_snoc _ _ _

/-- A transfer between places makes and answers nothing. -/
theorem between_snoc {v : Transfer} {p q : Place} (hsrc : v.src = some p) (hdst : v.dst = some q) :
    made (h ++ [v]) = made h ∧ answered (h ++ [v]) = answered h := by
  rw [made_snoc, answered_snoc]
  simp [Transfer.move, Move.entering, Move.leaving, inside, hsrc, hdst, anywhere]

theorem make_snoc {v : Transfer} {q : Place} (hsrc : v.src = none) (hdst : v.dst = some q) :
    made (h ++ [v]) = made h ++ [v.access] ∧ answered (h ++ [v]) = answered h := by
  rw [made_snoc, answered_snoc]
  simp [Transfer.move, Move.entering, Move.leaving, inside, hsrc, hdst, anywhere]

theorem absorb_snoc {v : Transfer} {p : Place} (hsrc : v.src = some p) (hdst : v.dst = none) :
    made (h ++ [v]) = made h ∧ answered (h ++ [v]) = answered h ++ [v.access] := by
  rw [made_snoc, answered_snoc]
  simp [Transfer.move, Move.entering, Move.leaving, inside, hsrc, hdst, anywhere]

/-- The flow goes on with a carried request. -/
theorem Account.flow_snoc (ha : Account s h) {access access' : MemoryAccess}
    {src dst : Option Place} {v : Transfer} (hv : Records v access src dst)
    (hc : Carried s s' access access' src dst) (hp : src ≠ none ∨ dst ≠ none) :
    Flow (moves (h ++ [v])) s'.marking := by
  rw [moves_append]
  refine .fire _ _ _ _ ha.flow ?_
  have hmove : v.move = ⟨access.identity, src, dst⟩ := by
    rw [Transfer.move, hv.access, hv.src, hv.dst]
  rw [hmove]
  exact hc.fires hp

theorem routes_snoc (hr : ∀ v ∈ h, v.Routed) {v : Transfer} (hv : v.Routed) :
    ∀ w ∈ h ++ [v], w.Routed := by
  intro w hw
  rcases List.mem_append.mp hw with hw | hw
  · exact hr w hw
  · rwa [List.mem_singleton.mp hw]

/-- Nothing moves. -/
theorem Account.still (ha : Account s h) (hshape : Shape s') (hm : s'.marking = s.marking)
    (hb : SameBooks s s') : Account s' h where
  shape := hshape
  flow := by
    rw [hm]
    exact ha.flow
  routes := ha.routes
  fresh := fun access hmem => by
    rw [hb.ids]
    exact ha.fresh access hmem
  unique := ha.unique
  waiting := fun c => by
    rw [hb.waiting c]
    exact ha.waiting c
  loads := fun access hout hread => by
    rw [hb.loads]
    exact ha.loads access hout hread
  loadIds := fun c => by
    rw [hb.loads, hb.ids]
    exact ha.loadIds c

/-- A request changes its place. -/
theorem Account.carry (ha : Account s h) (hshape : Shape s') {access access' : MemoryAccess}
    {p q : Place} {v : Transfer} (hv : Records v access (some p) (some q))
    (hl : p.Leads q = true) (hc : Carried s s' access access' (some p) (some q))
    (hb : SameBooks s s') : Account s' (h ++ [v]) := by
  obtain ⟨hmade, hans⟩ := between_snoc (h := h) hv.src hv.dst
  have hrouted : v.Routed :=
    { between := fun p' q' hp hq => by
        rw [hv.src] at hp
        rw [hv.dst] at hq
        cases hp
        cases hq
        exact hl
      made := fun hn => by rw [hv.src] at hn; cases hn
      done := fun hn => by rw [hv.dst] at hn; cases hn
      back := fun c hq => by
        rw [hv.dst] at hq
        cases hq
        have hfit := (hc.fits _ rfl).2
        have hcore : access'.identity.coreId = access.identity.coreId := by rw [hc.same]
        rw [hv.access, ← hfit]
        exact hcore }
  exact
    { shape := hshape
      flow := ha.flow_snoc hv hc (.inl (by simp))
      routes := routes_snoc ha.routes hrouted
      fresh := fun access hmem => by
        rw [hb.ids]
        exact ha.fresh access (hmade ▸ hmem)
      unique := by
        rw [hmade]
        exact ha.unique
      waiting := fun c => by
        rw [hb.waiting c, hmade, hans]
        exact ha.waiting c
      loads := fun access hout hread => by
        rw [hmade, hans] at hout
        rw [hb.loads]
        exact ha.loads access hout hread
      loadIds := fun c => by
        rw [hb.loads, hb.ids]
        exact ha.loadIds c }

/-- A core makes a request. -/
theorem Account.make (ha : Account s h) (hshape : Shape s') {access : MemoryAccess} {v : Transfer}
    {coreId : Nat} (hid : access.id = s.memAccessIds) (hcore : access.coreId = coreId)
    (hv : Records v access none (some (.requestQueue coreId)))
    (hc : Carried s s' access access none (some (.requestQueue coreId)))
    (hother : ∀ c, c ≠ coreId → s'.cores c = s.cores c)
    (hids : s'.memAccessIds = s.memAccessIds + 1)
    (hwait : (s'.cores coreId).waitingWriteReqs =
      (s.cores coreId).waitingWriteReqs + if access.write = true then 1 else 0)
    (hload : (access.write = true ∧ (s'.cores coreId).loads = (s.cores coreId).loads) ∨
      (access.write = false ∧ ∃ slot,
        (s'.cores coreId).loads = (s.cores coreId).loads ++ [(slot, access.id)])) :
    Account s' (h ++ [v]) := by
  obtain ⟨hmade, hans⟩ := make_snoc (h := h) hv.src hv.dst
  rw [hv.access] at hmade
  have hnew : access.identity ∉ made h := fun hmem =>
    absurd (ha.fresh _ hmem) (by show ¬ access.id < _; rw [hid]; exact Nat.lt_irrefl _)
  have hrouted : v.Routed :=
    { between := fun p' q' hp _ => by rw [hv.src] at hp; cases hp
      made := fun _ => by
        rw [hv.dst, hv.access, ← hcore]
        rfl
      done := fun hn => by rw [hv.dst] at hn; cases hn
      back := fun c hq => by rw [hv.dst] at hq; cases hq }
  exact
    { shape := hshape
      flow := ha.flow_snoc hv hc (.inr (by simp))
      routes := routes_snoc ha.routes hrouted
      fresh := fun x hmem => by
        rw [hids]
        rw [hmade] at hmem
        rcases List.mem_append.mp hmem with hmem | hmem
        · exact Nat.lt_succ_of_lt (ha.fresh x hmem)
        · rw [List.mem_singleton.mp hmem]
          show access.id < _
          rw [hid]
          exact Nat.lt_succ_self _
      unique := by
        rw [hmade, List.map_append, List.nodup_append]
        refine ⟨ha.unique, List.nodup_singleton _, ?_⟩
        rintro i hi j hj rfl
        obtain ⟨x, hx, rfl⟩ := List.mem_map.mp hi
        have hlt := ha.fresh x hx
        rw [List.mem_singleton.mp hj] at hlt
        exact absurd hlt (by show ¬ access.id < _; rw [hid]; exact Nat.lt_irrefl _)
      waiting := fun c => by
        rw [hmade, hans, List.countP_append, List.countP_singleton]
        have hc := ha.waiting c
        by_cases hcc : c = coreId
        · subst hcc
          rw [hwait]
          have hw : writeOf c access.identity = access.write := by
            simp [writeOf, MemoryAccess.identity, hcore]
          rw [hw]
          omega
        · rw [hother c hcc]
          have hw : writeOf c access.identity = false := by
            simp [writeOf, MemoryAccess.identity, hcore, Ne.symm hcc]
          rw [hw]
          simpa using hc
      loads := fun x hout hread => by
        rw [hmade, hans, List.count_append, List.count_singleton] at hout
        by_cases hx : access.identity = x
        · subst hx
          rcases hload with ⟨hw, _⟩ | ⟨_, slot, hnew⟩
          · exact absurd (hread.symm.trans hw) Bool.false_ne_true
          · refine ⟨slot, ?_⟩
            show (slot, access.id) ∈ (s'.cores access.coreId).loads
            rw [hcore, hnew]
            exact List.mem_append_right _ (List.mem_singleton_self _)
        · rw [if_neg (by simpa using hx)] at hout
          obtain ⟨slot, hmem⟩ := ha.loads x hout hread
          refine ⟨slot, ?_⟩
          by_cases hcc : x.coreId = coreId
          · rw [hcc] at hmem ⊢
            rcases hload with ⟨_, hsame⟩ | ⟨_, slot', hnew⟩
            · rwa [hsame]
            · rw [hnew]
              exact List.mem_append_left _ hmem
          · rwa [hother _ hcc]
      loadIds := fun c => by
        obtain ⟨hnodup, hlt⟩ := ha.loadIds c
        have hlater : ∀ l ∈ (s.cores c).loads, l.2 < s'.memAccessIds := fun l hl =>
          hids ▸ Nat.lt_succ_of_lt (hlt l hl)
        by_cases hcc : c = coreId
        · subst hcc
          rcases hload with ⟨_, hsame⟩ | ⟨_, slot, hnew⟩
          · rw [hsame]
            exact ⟨hnodup, hlater⟩
          · rw [hnew, List.map_append, List.nodup_append]
            refine ⟨⟨hnodup, List.nodup_singleton _, ?_⟩, fun l hl => ?_⟩
            · rintro i hi j hj rfl
              obtain ⟨l, hl, rfl⟩ := List.mem_map.mp hi
              have hold := hlt l hl
              rw [List.mem_singleton.mp hj, hid] at hold
              exact absurd hold (Nat.lt_irrefl _)
            · rcases List.mem_append.mp hl with hl | hl
              · exact hlater l hl
              · rw [List.mem_singleton.mp hl, hids]
                show access.id < _
                rw [hid]
                exact Nat.lt_succ_self _
        · rw [hother c hcc]
          exact ⟨hnodup, hlater⟩ }

/-- Requests with one id are one request. -/
theorem Account.eq_of_id (ha : Account s h) {x y : MemoryAccess} (hx : x ∈ made h)
    (hy : y ∈ made h) (hid : x.id = y.id) : x = y :=
  List.inj_on_of_nodup_map ha.unique hx hy hid

/-- What is somewhere was made and not answered. -/
theorem Account.outstanding (ha : Account s h) {p : Place} {access : MemoryAccess}
    (hmem : access ∈ s.contents p) :
    (made h).count access.identity = (answered h).count access.identity + 1 := by
  obtain ⟨o, hat, hcross⟩ := ha.flow.located ha.distinct access.identity
  have ho := hat.eq_some (marking_pos hmem)
  have hc := hcross anywhere
  rw [ho, if_pos (show inside anywhere (some p) = true from rfl)] at hc
  exact hc

/-- A request that is somewhere is one that was made, besides the answered ones. -/
theorem Account.answered_cons_subperm (ha : Account s h) {p : Place} {access : MemoryAccess}
    (hmem : access ∈ s.contents p) : (access.identity :: answered h).Subperm (made h) := by
  refine List.subperm_iff_count.mpr fun t => ?_
  rw [List.count_cons]
  by_cases ht : access.identity = t
  · subst ht
    rw [ha.outstanding hmem]
    simp
  · rw [if_neg (by simpa using ht)]
    exact ha.flow.exits_le_entries ha.distinct anywhere t

/-- A core gets an answer. -/
theorem Account.absorb (ha : Account s h) (hshape : Shape s') {access : MemoryAccess}
    {v : Transfer} {coreId : Nat} (hv : Records v access (some (.coreOutput coreId)) none)
    (hc : Carried s s' access access (some (.coreOutput coreId)) none)
    (hother : ∀ c, c ≠ coreId → (s'.cores c).loads = (s.cores c).loads ∧
      (s'.cores c).waitingWriteReqs = (s.cores c).waitingWriteReqs)
    (hcore : (s'.cores coreId).loads = (pushMemoryResponse access (s.cores coreId)).loads ∧
      (s'.cores coreId).waitingWriteReqs =
        (pushMemoryResponse access (s.cores coreId)).waitingWriteReqs)
    (hids : s'.memAccessIds = s.memAccessIds) : Account s' (h ++ [v]) := by
  obtain ⟨hmade, hans⟩ := absorb_snoc (h := h) hv.src hv.dst
  rw [hv.access] at hans
  have hmem : access ∈ s.contents (.coreOutput coreId) :=
    (hc.took _ rfl).mem_iff.mpr List.mem_cons_self
  have hid : access.coreId = coreId := (ha.shape _ _ hmem).2
  have hout := ha.outstanding hmem
  have hrouted : v.Routed :=
    { between := fun p' q' _ hq => by rw [hv.dst] at hq; cases hq
      made := fun hn => by rw [hv.src] at hn; cases hn
      done := fun _ => by
        rw [hv.src, hv.access, ← hid]
        rfl
      back := fun c hq => by rw [hv.dst] at hq; cases hq }
  exact
    { shape := hshape
      flow := ha.flow_snoc hv hc (.inl (by simp))
      routes := routes_snoc ha.routes hrouted
      fresh := fun x hx => by
        rw [hids]
        exact ha.fresh x (hmade ▸ hx)
      unique := by
        rw [hmade]
        exact ha.unique
      waiting := fun c => by
        rw [hmade, hans, List.countP_append, List.countP_singleton]
        have hbooks := ha.waiting c
        by_cases hcc : c = coreId
        · subst hcc
          rw [hcore.2]
          have hw : writeOf c access.identity = access.write := by
            simp [writeOf, MemoryAccess.identity, hid]
          rw [hw]
          unfold pushMemoryResponse
          cases hwrite : access.write with
          | false => simpa using hbooks
          | true =>
              -- the answered write is one the core still waits for
              have hlt : (answered h).countP (writeOf c) < (made h).countP (writeOf c) := by
                have hle := (ha.answered_cons_subperm hmem).countP_le (writeOf c)
                rw [List.countP_cons_of_pos (by rw [hw]; exact hwrite)] at hle
                exact hle
              simp only [if_true]
              omega
        · rw [(hother c hcc).2]
          have hw : writeOf c access.identity = false := by
            simp [writeOf, MemoryAccess.identity, hid, Ne.symm hcc]
          rw [hw]
          simpa using hbooks
      loads := fun x hx hread => by
        rw [hmade, hans, List.count_append, List.count_singleton] at hx
        have hne : access.identity ≠ x := by
          rintro rfl
          rw [if_pos (by simp)] at hx
          omega
        rw [if_neg (by simpa using hne)] at hx
        obtain ⟨slot, hl⟩ := ha.loads x hx hread
        refine ⟨slot, ?_⟩
        by_cases hcc : x.coreId = coreId
        · rw [hcc] at hl ⊢
          rw [hcore.1]
          unfold pushMemoryResponse
          split
          · exact hl
          · refine List.mem_filter.mpr ⟨hl, ?_⟩
            have hidne : x.id ≠ access.id := fun heq => hne (ha.eq_of_id
              (List.count_pos_iff.mp (by omega)) (List.count_pos_iff.mp (by omega)) heq.symm)
            simpa using hidne
        · rwa [(hother _ hcc).1]
      loadIds := fun c => by
        have hsub : (s'.cores c).loads.Sublist (s.cores c).loads := by
          by_cases hcc : c = coreId
          · subst hcc
            rw [hcore.1]
            unfold pushMemoryResponse
            split
            · exact List.Sublist.refl _
            · exact List.filter_sublist
          · rw [(hother c hcc).1]
        obtain ⟨hnodup, hlt⟩ := ha.loadIds c
        rw [hids]
        exact ⟨hnodup.sublist (hsub.map _), fun l hl => hlt l (hsub.subset hl)⟩ }

/-- **The rules keep the account.** -/
theorem Rule.account {e : List Transfer} (hr : Rule s s' e) (ha : Account s h) :
    Account s' (h ++ e) := by
  have hshape := hr.shape ha.shape
  cases hr with
  | still hq hb =>
      rw [List.append_nil]
      exact ha.still hshape (marking_eq hq) hb
  | carry hv hl hc hb => exact ha.carry hshape hv hl hc hb
  | make hid hcore hv hc hother hids hn hwait hload =>
      exact ha.make hshape hid hcore hv hc hother hids hwait hload
  | absorb hv hc hother hcore hids hn => exact ha.absorb hshape hv hc hother hcore hids

theorem chain_account {e : List Transfer} (hc : Chain Rule s s' e) (ha : Account s h) :
    Account s' (h ++ e) :=
  hc.preserves (P := fun t h => Account t h) (fun _ _ _ _ hP hr => hr.account hP) ha

/-! ## 3. The account of a run -/

/-- What a step of the machine is. -/
theorem machine_step {s s' : Simulator} {a : MemoryAct} (hs : machine.step s a = some s') :
    ∃ e, s.exec a = some (s', e) ∧ machine.obs s a s' = e := by
  obtain ⟨⟨t, e⟩, hr, rfl⟩ := Option.map_eq_some_iff.mp hs
  refine ⟨e, hr, ?_⟩
  show ((s.exec a).map Prod.snd).getD [] = e
  rw [hr]
  rfl

end Simulator

open Simulator

/-- The account is in order at the start. -/
theorem MemorySetup.start_account (c : MemorySetup) : Account c.start [] := by
  have hempty : ∀ p, c.start.contents p = [] := fun p => by cases p <;> rfl
  exact
    { shape := fun p access hmem => by rw [hempty p] at hmem; cases hmem
      flow := by
        have hm : c.start.marking = Marking.empty := by
          funext p access
          show ((c.start.contents p).map _).count access = 0
          rw [hempty p]
          rfl
        rw [hm]
        exact .empty
      routes := fun v hv => by cases hv
      fresh := fun access hmem => by cases hmem
      unique := List.nodup_nil
      waiting := fun _ => rfl
      loads := fun access hout => by cases hout
      loadIds := fun _ => ⟨List.nodup_nil, fun l hl => by cases hl⟩ }

/-- **The account is in order in every state of every run.** -/
theorem MemorySetup.account {c : MemorySetup} {as : List MemoryAct} {s : Simulator}
    {h : List Transfer} (hr : c.run as = some (s, h)) : Account s h := by
  refine (exec_of_run hr).invariant (P := Account) c.start_account ?_
  intro t h a t' ha hs
  obtain ⟨e, hexec, hobs⟩ := machine_step hs
  rw [hobs]
  exact chain_account (exec_chain ha.shape hexec) ha

end Ahasd
