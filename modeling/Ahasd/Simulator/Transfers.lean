/-
  File:      Ahasd/Simulator/Transfers.lean
  Subject:   WHAT AN ACT OF THE MEMORY SIDE DOES TO THE REQUESTS.

  Every act is a sequence of rules. A rule takes one request from one place to another along the
  routes of the design (`Place.Leads`), brings in a request or an answer at a core, or leaves all
  requests where they are.

  * `contents`: the requests in a place;
  * `Carried`: one request changes its place;
  * `Rule`: the rules; `SameBooks`: what the rules that concern no core leave alone;
  * `Fits`: what is known of a request from the place it is in;
  * `op_chain`, `exec_chain`: the parts of a cycle and the acts are sequences of rules.
-/
import Ahasd.Simulator.MemorySide

namespace Ahasd

open Transition

/-! ## 1. Places -/

/-- The routes of the design. -/
def Place.Leads : Place → Place → Bool
  | requestQueue _, toMemory _ => true
  | toMemory m, icntOutput m' => m = m'
  | icntOutput m, command m' => m = m'
  | icntOutput m, hold m' | command m, hold m' => m = m'
  | icntOutput m, aauBypass m' | command m, aauBypass m' => m = m'
  | icntOutput m, ssrcBypass m' | command m, ssrcBypass m' => m = m'
  | icntOutput m, dram m' | command m, dram m' | hold m, dram m' => m = m'
  | aauBypass _, toCore _ | ssrcBypass _, toCore _ | dram _, toCore _ => true
  | toCore c, coreOutput c' => c = c'
  | _, _ => false

/-- What is known of a request from the place it is in. -/
def Fits (nCores : Nat) (access : MemoryAccess) : Place → Prop
  | .requestQueue coreId => access.coreId < nCores ∧ access.coreId = coreId ∧ access.request = true
  | .aauBypass _ | .ssrcBypass _ | .dram _ => access.coreId < nCores ∧ access.request = false
  | .toCore coreId | .coreOutput coreId => access.coreId < nCores ∧ access.coreId = coreId
  | _ => access.coreId < nCores

theorem Fits.lt {nCores : Nat} {access : MemoryAccess} {p : Place} (h : Fits nCores access p) :
    access.coreId < nCores := by
  cases p <;> simp only [Fits] at h <;> omega

/-- The requests a channel keeps in a place. -/
def Channel.contents (ch : Channel) : Place → List MemoryAccess
  | .icntOutput _ => ch.icntOutput
  | .command _ => ch.pimCmdOooQueue
  | .hold _ => ch.pimHoldQueue.map Prod.snd
  | .aauBypass _ => ch.pimBypassQueue.map Prod.snd
  | .ssrcBypass _ => ch.pimSsrcBypassQueue.map Prod.snd
  | .dram _ => ch.dramQueue ++ ch.dramResponses
  | _ => []

/-- The channel a place belongs to. -/
def Place.memId : Place → Option Nat
  | icntOutput m | command m | hold m | aauBypass m | ssrcBypass m | dram m => some m
  | _ => none

namespace Simulator

/-- The requests in a place. -/
def contents (s : Simulator) : Place → List MemoryAccess
  | .requestQueue coreId => (s.cores coreId).requestQueue
  | .toMemory memId => s.toMemory memId
  | .toCore coreId => s.toCore coreId
  | .coreOutput coreId => s.coreOutput coreId
  | p@(.icntOutput memId) | p@(.command memId) | p@(.hold memId) | p@(.aauBypass memId)
  | p@(.ssrcBypass memId) | p@(.dram memId) => (s.channels memId).contents p

theorem contents_channel {s : Simulator} {p : Place} {m : Nat} (h : p.memId = some m) :
    s.contents p = (s.channels m).contents p := by
  cases p <;> simp only [Place.memId, Option.some.injEq, reduceCtorEq] at h <;> subst h <;> rfl

/-- A change of one channel, seen from the places. -/
theorem contents_updateChannel (s : Simulator) (m : Nat) (f : Channel → Channel) (p : Place) :
    (s.updateChannel m f).contents p =
      if p.memId = some m then (f (s.channels m)).contents p else s.contents p := by
  split
  · next h => rw [contents_channel h]; simp [updateChannel]
  · next h =>
      cases p <;> simp only [Place.memId, Option.some.injEq] at h <;>
        simp [contents, updateChannel, Function.update_of_ne h]

/-! ## 2. The rules -/

/-- One request changes its place (`none`: outside), and its flag at most; the other places keep
    what they have. -/
structure Carried (s s' : Simulator) (access access' : MemoryAccess) (src dst : Option Place) :
    Prop where
  same : access'.identity = access.identity
  ne : src ≠ dst
  took : ∀ p, src = some p → (s.contents p).Perm (access :: s'.contents p)
  put : ∀ p, dst = some p → (s'.contents p).Perm (access' :: s.contents p)
  other : ∀ p, src ≠ some p → dst ≠ some p → (s'.contents p).Perm (s.contents p)
  fits : ∀ p, dst = some p → Fits s.nCores access' p

/-- What the cores know of their requests stays, and no request is made. -/
structure SameBooks (s s' : Simulator) : Prop where
  loads : ∀ c, (s'.cores c).loads = (s.cores c).loads
  waiting : ∀ c, (s'.cores c).waitingWriteReqs = (s.cores c).waitingWriteReqs
  nCores : s'.nCores = s.nCores
  ids : s'.memAccessIds = s.memAccessIds

/-- The transfer is of this request, between these places. -/
structure Records (v : Transfer) (access : MemoryAccess) (src dst : Option Place) : Prop where
  access : v.access = access.identity
  src : v.src = src
  dst : v.dst = dst

/-- The rules. -/
inductive Rule : Simulator → Simulator → List Transfer → Prop where
  | still {s s' : Simulator} (hq : ∀ p, (s'.contents p).Perm (s.contents p))
      (hb : SameBooks s s') : Rule s s' []
  | carry {s s' : Simulator} {access access' : MemoryAccess} {p q : Place} {v : Transfer}
      (hv : Records v access (some p) (some q)) (hl : p.Leads q = true)
      (hc : Carried s s' access access' (some p) (some q)) (hb : SameBooks s s') : Rule s s' [v]
  /-- a core makes a request -/
  | make {s s' : Simulator} {access : MemoryAccess} {v : Transfer} {coreId : Nat}
      (hid : access.id = s.memAccessIds) (hcore : access.coreId = coreId)
      (hv : Records v access none (some (.requestQueue coreId)))
      (hc : Carried s s' access access none (some (.requestQueue coreId)))
      (hother : ∀ c, c ≠ coreId → s'.cores c = s.cores c)
      (hids : s'.memAccessIds = s.memAccessIds + 1) (hn : s'.nCores = s.nCores)
      (hwait : (s'.cores coreId).waitingWriteReqs =
        (s.cores coreId).waitingWriteReqs + if access.write = true then 1 else 0)
      (hload : (access.write = true ∧ (s'.cores coreId).loads = (s.cores coreId).loads) ∨
        (access.write = false ∧ ∃ slot,
          (s'.cores coreId).loads = (s.cores coreId).loads ++ [(slot, access.id)])) : Rule s s' [v]
  /-- a core gets an answer -/
  | absorb {s s' : Simulator} {access : MemoryAccess} {v : Transfer} {coreId : Nat}
      (hv : Records v access (some (.coreOutput coreId)) none)
      (hc : Carried s s' access access (some (.coreOutput coreId)) none)
      (hother : ∀ c, c ≠ coreId → (s'.cores c).loads = (s.cores c).loads ∧
        (s'.cores c).waitingWriteReqs = (s.cores c).waitingWriteReqs)
      (hcore : (s'.cores coreId).loads = (pushMemoryResponse access (s.cores coreId)).loads ∧
        (s'.cores coreId).waitingWriteReqs =
          (pushMemoryResponse access (s.cores coreId)).waitingWriteReqs)
      (hids : s'.memAccessIds = s.memAccessIds) (hn : s'.nCores = s.nCores) : Rule s s' [v]

/-- Every request fits the place it is in. -/
def Shape (s : Simulator) : Prop :=
  ∀ p, ∀ access ∈ s.contents p, Fits s.nCores access p

/-! ## 3. Frames -/

/-- Only counters and the overlay change. -/
structure Idle (s s' : Simulator) : Prop where
  contents : ∀ p, s'.contents p = s.contents p
  books : SameBooks s s'

theorem SameBooks.of_cores {s s' : Simulator} (hc : s'.cores = s.cores)
    (hn : s'.nCores = s.nCores) (hi : s'.memAccessIds = s.memAccessIds) : SameBooks s s' :=
  ⟨fun _ => by rw [hc], fun _ => by rw [hc], hn, hi⟩

theorem SameBooks.refl (s : Simulator) : SameBooks s s := .of_cores rfl rfl rfl

theorem SameBooks.trans {s s' s'' : Simulator} (h : SameBooks s s') (h' : SameBooks s' s'') :
    SameBooks s s'' :=
  ⟨fun c => (h'.loads c).trans (h.loads c), fun c => (h'.waiting c).trans (h.waiting c),
    h'.nCores.trans h.nCores, h'.ids.trans h.ids⟩

theorem Idle.refl (s : Simulator) : Idle s s := ⟨fun _ => rfl, .refl s⟩

theorem Idle.trans {s s' s'' : Simulator} (h : Idle s s') (h' : Idle s' s'') : Idle s s'' :=
  ⟨fun p => (h'.contents p).trans (h.contents p), h.books.trans h'.books⟩

theorem Idle.chain {s s' : Simulator} (h : Idle s s') : Chain Rule s s' [] :=
  .one (.still (fun p => .of_eq (h.contents p)) h.books)

/-- A transfer between idle steps. -/
theorem Carried.idle {s₀ s s' s'' : Simulator} {access access' : MemoryAccess}
    {src dst : Option Place} (h₀ : Idle s₀ s) (h : Carried s s' access access' src dst)
    (h' : Idle s' s'') : Carried s₀ s'' access access' src dst where
  same := h.same
  ne := h.ne
  took p hp := by
    rw [h'.contents p, ← h₀.contents p]
    exact h.took p hp
  put p hp := by
    rw [h'.contents p, ← h₀.contents p]
    exact h.put p hp
  other p hp hq := by
    rw [h'.contents p, ← h₀.contents p]
    exact h.other p hp hq
  fits p hp := by
    rw [← h₀.books.nCores]
    exact h.fits p hp

theorem updateChannel_books (s : Simulator) (m : Nat) (f : Channel → Channel) :
    SameBooks s (s.updateChannel m f) :=
  .of_cores rfl rfl rfl

theorem icntPush_books (s : Simulator) (access : MemoryAccess) (node : Node) :
    SameBooks s (s.icntPush access node) := by
  cases node <;> exact .of_cores rfl rfl rfl

theorem icntPush_channels (s : Simulator) (access : MemoryAccess) (node : Node) :
    (s.icntPush access node).channels = s.channels := by
  cases node <;> rfl

theorem notePimCommandIssued_idle (m : Nat) (s : Simulator) : Idle s (s.notePimCommandIssued m) := by
  unfold notePimCommandIssued
  split
  · exact ⟨fun p => by cases p <;> rfl, .of_cores rfl rfl rfl⟩
  · exact .refl s

theorem noteTlmReadIssueWindow_idle (m : Nat) (selected : Option MemoryAccess) (s : Simulator) :
    Idle s (s.noteTlmReadIssueWindow m selected) := by
  unfold noteTlmReadIssueWindow
  split
  · exact .refl s
  · split
    · exact .refl s
    · exact ⟨fun p => by cases p <;> rfl, .of_cores rfl rfl rfl⟩

theorem notePimCommandCandidate_idle (m : Nat) (s : Simulator) :
    Idle s (s.notePimCommandCandidate m) := by
  unfold notePimCommandCandidate
  dsimp only
  split
  · exact ⟨fun p => by cases p <;> rfl, .of_cores rfl rfl rfl⟩
  · exact .refl s

/-- A request moves inside a channel. -/
theorem carried_channel {s : Simulator} {m : Nat} {f : Channel → Channel} {p q : Place}
    {access access' : MemoryAccess} (hp : p.memId = some m) (hq : q.memId = some m) (hne : p ≠ q)
    (same : access'.identity = access.identity)
    (took : ((s.channels m).contents p).Perm (access :: (f (s.channels m)).contents p))
    (put : ((f (s.channels m)).contents q).Perm (access' :: (s.channels m).contents q))
    (other : ∀ x : Place, x ≠ p → x ≠ q → x.memId = some m →
      ((f (s.channels m)).contents x).Perm ((s.channels m).contents x))
    (fits : Fits s.nCores access' q) :
    Carried s (s.updateChannel m f) access access' (some p) (some q) where
  same := same
  ne := fun heq => hne (Option.some.inj heq)
  took := by
    rintro _ ⟨⟩
    rw [contents_updateChannel, if_pos hp, contents_channel hp]
    exact took
  put := by
    rintro _ ⟨⟩
    rw [contents_updateChannel, if_pos hq, contents_channel hq]
    exact put
  other x hx hx' := by
    rw [contents_updateChannel]
    split
    · next h =>
        rw [contents_channel h]
        exact other x (fun heq => hx (by rw [heq])) (fun heq => hx' (by rw [heq])) h
    · exact .refl _
  fits := by
    rintro _ ⟨⟩
    exact fits

/-- A request leaves a channel for its core. -/
theorem carried_sendBack {s : Simulator} {m : Nat} {f : Channel → Channel} {p : Place}
    {access : MemoryAccess} (hp : p.memId = some m)
    (took : ((s.channels m).contents p).Perm (access :: (f (s.channels m)).contents p))
    (other : ∀ x : Place, x ≠ p → x.memId = some m →
      ((f (s.channels m)).contents x).Perm ((s.channels m).contents x))
    (hlt : access.coreId < s.nCores) (hflag : access.request = false) :
    (s.updateChannel m f).getDestNode access = .core access.coreId ∧
      Carried s ((s.updateChannel m f).icntPush access (.core access.coreId)) access access
        (some p) (some (.toCore access.coreId)) := by
  refine ⟨by rw [getDestNode, if_neg (by simp [hflag])], ?_⟩
  have hpush : ∀ x : Place, x ≠ .toCore access.coreId →
      ((s.updateChannel m f).icntPush access (.core access.coreId)).contents x =
        (s.updateChannel m f).contents x := by
    intro x hx
    cases x with
    | toCore c =>
        have hc : c ≠ access.coreId := fun heq => hx (by rw [heq])
        simp [contents, icntPush, updateChannel, Function.update_of_ne hc]
    | _ => rfl
  have hpc : p ≠ .toCore access.coreId := fun heq => by rw [heq] at hp; cases hp
  exact
    { same := rfl
      ne := fun heq => hpc (Option.some.inj heq)
      took := by
        rintro _ ⟨⟩
        rw [hpush p hpc, contents_updateChannel, if_pos hp, contents_channel hp]
        exact took
      put := by
        rintro _ ⟨⟩
        simp only [contents, icntPush, updateChannel, Function.update_self]
        exact List.perm_append_singleton _ _
      other := fun x hx hx' => by
        rw [hpush x (fun heq => hx' (by rw [heq])), contents_updateChannel]
        split
        · next h =>
            rw [contents_channel h]
            exact other x (fun heq => hx (by rw [heq])) h
        · exact .refl _
      fits := by
        rintro _ ⟨⟩
        exact ⟨hlt, rfl⟩ }

/-! ## 4. Requests stay where they fit -/

variable {s s' : Simulator}

/-- A request that is carried to a place it fits. -/
theorem Carried.shape {access access' : MemoryAccess} {src dst : Option Place}
    (hc : Carried s s' access access' src dst) (hn : s'.nCores = s.nCores) (h : Shape s) :
    Shape s' := by
  intro p x hx
  rw [hn]
  by_cases hdst : dst = some p
  · rcases List.mem_cons.mp ((hc.put p hdst).mem_iff.mp hx) with rfl | hx
    · exact hc.fits p hdst
    · exact h p x hx
  · by_cases hsrc : src = some p
    · exact h p x ((hc.took p hsrc).mem_iff.mpr (List.mem_cons_of_mem _ hx))
    · exact h p x ((hc.other p hsrc hdst).mem_iff.mp hx)

/-- **The rules keep every request where it fits.** -/
theorem Rule.shape {e : List Transfer} (hr : Rule s s' e) (h : Shape s) : Shape s' := by
  cases hr with
  | still hq hb =>
      intro p x hx
      rw [hb.nCores]
      exact h p x ((hq p).mem_iff.mp hx)
  | carry _ _ hc hb => exact hc.shape hb.nCores h
  | make _ _ _ hc _ _ hn => exact hc.shape hn h
  | absorb _ hc _ _ _ hn => exact hc.shape hn h

theorem chain_shape {e : List Transfer} (hc : Chain Rule s s' e) (h : Shape s) : Shape s' :=
  hc.preserves (P := fun t (_ : List Transfer) => Shape t) (h := [])
    (fun _ _ _ _ hP hr => hr.shape hP) h

/-! ## 5. The parts of a cycle -/

theorem carry_chain (s₁ : Simulator) (access access' : MemoryAccess) {p q : Place} {v : Transfer}
    (hv : Records v access (some p) (some q)) (hl : p.Leads q = true)
    (hc : Carried s s₁ access access' (some p) (some q)) (hb : SameBooks s s₁)
    (hi : Idle s₁ s') : Chain Rule s s' [v] :=
  .one (.carry hv hl (hc.idle (.refl s) hi) (hb.trans hi.books))

theorem drainHold_chain (h : Shape s) (full : MemoryAccess → Bool) (m : Nat) :
    Chain Rule s (s.drainHold full m).1 (s.drainHold full m).2 := by
  unfold drainHold
  cases hq : (s.channels m).pimHoldQueue with
  | nil => exact .nil s
  | cons e rest =>
      obtain ⟨deadline, front⟩ := e
      dsimp only
      split
      · have hfits := h (.hold m) front (by simp [contents, Channel.contents, hq])
        refine carry_chain
          (s.updateChannel m fun ch => dramPush front { ch with pimHoldQueue := rest })
          front { front with request := false }
          ⟨rfl, rfl, rfl⟩ (by simp [Place.Leads])
          (carried_channel rfl rfl (by simp) rfl ?_ ?_ ?_ ⟨hfits.lt, rfl⟩)
          (updateChannel_books _ _ _) ((notePimCommandIssued_idle m _).trans
            ⟨fun p => by cases p <;> rfl, .of_cores rfl rfl rfl⟩)
        · simp [Channel.contents, dramPush, hq]
        · simp only [Channel.contents, dramPush, List.append_assoc, List.singleton_append]
          exact List.perm_middle
        · intro x hx hx' hm
          cases x <;> simp only [Place.memId, Option.some.injEq, reduceCtorEq] at hm <;>
            subst hm <;> first | exact .refl _ | exact absurd rfl hx | exact absurd rfl hx'
      · exact .nil s

theorem composes_chain : Composes fun s r => Shape s → Chain Rule s r.1 r.2 where
  nothing s _ := .nil s
  trans h h' hs := (h hs).trans (h' (chain_shape (h hs) hs))

theorem refill_chain (h : Shape s) (m : Nat) : Chain Rule s (s.refill m).1 (s.refill m).2 := by
  refine refill_of_moved composes_chain (fun s front icnt hq h => ?_) s h
  have hfits := h (.icntOutput m) front (by simp [contents, Channel.contents, hq])
  dsimp only
  refine carry_chain _ front front ⟨rfl, rfl, rfl⟩ (by simp [Place.Leads])
    (carried_channel rfl rfl (by simp) rfl ?_ ?_ ?_ hfits.lt) (updateChannel_books _ _ _) (.refl _)
  · simp [Channel.contents, hq]
  · exact List.perm_append_singleton _ _
  · intro x hx hx' hm
    cases x <;> simp only [Place.memId, Option.some.injEq, reduceCtorEq] at hm <;>
      subst hm <;> first | exact .refl _ | exact absurd rfl hx | exact absurd rfl hx'

/-- The request waits where it is said to wait. -/
def Waiting (s : Simulator) (m : Nat) (front : MemoryAccess) : Option Nat → Prop
  | some i => (s.channels m).pimCmdOooQueue[i]? = some front
  | none => (s.channels m).icntOutput.head? = some front

theorem incoming_waiting {full : MemoryAccess → Bool} {m : Nat} {front : MemoryAccess}
    {index : Option Nat} (h : s.incoming full m = some (front, index)) : s.Waiting m front index := by
  unfold incoming at h
  dsimp only at h
  split at h
  · obtain ⟨x, hx, heq⟩ := Option.map_eq_some_iff.mp h
    obtain ⟨rfl, rfl⟩ := Prod.mk.inj heq
    exact hx
  · obtain ⟨x, hx, heq⟩ := Option.map_eq_some_iff.mp h
    obtain ⟨rfl, rfl⟩ := Prod.mk.inj heq
    exact hx

/-- The request as its new place keeps it. -/
def Landing.entry (front : MemoryAccess) : Landing → MemoryAccess
  | hold _ => front
  | _ => { front with request := false }

theorem accept_carried {m : Nat} {front : MemoryAccess} {index : Option Nat}
    (hw : s.Waiting m front index) (hlt : front.coreId < s.nCores) (landing : Landing) :
    Carried s (s.updateChannel m fun ch => takeIncoming index (s.land front ch landing)) front
      (landing.entry front) (some (incomingPlace m index)) (some (landing.place m)) := by
  have hsame : (landing.entry front).identity = front.identity := by cases landing <;> rfl
  have hfits : Fits s.nCores (landing.entry front) (landing.place m) := by
    cases landing <;> first | exact ⟨hlt, rfl⟩ | exact hlt
  have hput : ((takeIncoming index (s.land front (s.channels m) landing)).contents
      (landing.place m)).Perm (landing.entry front :: (s.channels m).contents (landing.place m)) := by
    cases index <;> cases landing <;>
      simp only [takeIncoming, land, dramPush, Landing.place, Channel.contents, Landing.entry,
        List.map_append, List.map_cons, List.map_nil, List.append_assoc, List.singleton_append] <;>
      first | exact List.perm_append_singleton _ _ | exact List.perm_middle
  cases index with
  | none =>
      obtain ⟨rest, hq⟩ : ∃ rest, (s.channels m).icntOutput = front :: rest := by
        obtain ⟨rest, hrest⟩ := List.head?_eq_some_iff.mp hw
        exact ⟨rest, hrest⟩
      refine carried_channel rfl (by cases landing <;> rfl) (by cases landing <;> simp [incomingPlace,
        Landing.place]) hsame ?_ hput ?_ hfits
      · cases landing <;> simp [incomingPlace, Channel.contents, takeIncoming, land, dramPush, hq]
      · intro x hx hx' hm
        cases landing <;> cases x <;>
          simp only [Place.memId, Option.some.injEq, reduceCtorEq] at hm <;>
          subst hm <;> first | exact .refl _ | exact absurd rfl hx | exact absurd rfl hx'
  | some i =>
      obtain ⟨hi, hget⟩ := List.getElem?_eq_some_iff.mp hw
      have htook := (List.getElem_cons_eraseIdx_perm hi).symm
      rw [hget] at htook
      refine carried_channel rfl (by cases landing <;> rfl) (by cases landing <;> simp [incomingPlace,
        Landing.place]) hsame ?_ hput ?_ hfits
      · cases landing <;> exact htook
      · intro x hx hx' hm
        cases landing <;> cases x <;>
          simp only [Place.memId, Option.some.injEq, reduceCtorEq] at hm <;>
          subst hm <;> first | exact .refl _ | exact absurd rfl hx | exact absurd rfl hx'

theorem accept_chain (h : Shape s) {m : Nat} {front : MemoryAccess} {index : Option Nat}
    (hw : s.Waiting m front index) :
    Chain Rule s (s.accept m front index).1 (s.accept m front index).2 := by
  have hlt : front.coreId < s.nCores := by
    cases index with
    | none =>
        exact (h (.icntOutput m) front (List.mem_of_mem_head? hw)).lt
    | some i =>
        exact (h (.command m) front (List.mem_of_getElem? hw)).lt
  unfold accept
  obtain ⟨landing, pim, ssrc⟩ := s.route m front
  dsimp only
  refine carry_chain _ front (landing.entry front) ⟨rfl, rfl, rfl⟩ ?_
    (accept_carried hw hlt landing) (updateChannel_books _ _ _) ?_
  · cases index <;> cases landing <;> simp [incomingPlace, Landing.place, Place.Leads]
  · have hoverlay : Idle
        (s.updateChannel m fun ch => takeIncoming index (s.land front ch landing))
        ({ s with pim := pim, ssrc := ssrc }.updateChannel m fun ch =>
          takeIncoming index (s.land front ch landing)) :=
      ⟨fun p => by cases p <;> rfl, .of_cores rfl rfl rfl⟩
    have hcount : ∀ t : Simulator, Idle t { t with totNrToMem := t.totNrToMem + 1 } :=
      fun t => ⟨fun p => by cases p <;> rfl, .of_cores rfl rfl rfl⟩
    refine (hoverlay.trans ?_).trans (hcount _)
    split
    · exact notePimCommandIssued_idle m _
    · exact .refl _

theorem Waiting.idle {m : Nat} {front : MemoryAccess} {index : Option Nat}
    (hw : s.Waiting m front index) (hch : s'.channels = s.channels) : s'.Waiting m front index := by
  cases index with
  | none =>
      show (s'.channels m).icntOutput.head? = some front
      rw [hch]
      exact hw
  | some i =>
      show (s'.channels m).pimCmdOooQueue[i]? = some front
      rw [hch]
      exact hw

theorem noteTlmReadIssueWindow_channels (m : Nat) (selected : Option MemoryAccess)
    (s : Simulator) : (s.noteTlmReadIssueWindow m selected).channels = s.channels := by
  unfold noteTlmReadIssueWindow
  split
  · rfl
  · split <;> rfl

theorem issue_chain (h : Shape s) (full : MemoryAccess → Bool) (m : Nat) :
    Chain Rule s (s.issue full m).1 (s.issue full m).2 := by
  unfold issue
  have hidle := noteTlmReadIssueWindow_idle m ((s.incoming full m).map Prod.fst) s
  have hch := noteTlmReadIssueWindow_channels m ((s.incoming full m).map Prod.fst) s
  generalize hs₁ : s.noteTlmReadIssueWindow m ((s.incoming full m).map Prod.fst) = s₁ at hidle hch
  cases hin : s.incoming full m with
  | none =>
      simp only [hin] at hs₁
      dsimp only
      rw [hs₁]
      exact hidle.chain
  | some r =>
      obtain ⟨front, index⟩ := r
      simp only [hin] at hs₁
      dsimp only
      rw [hs₁]
      split
      · exact hidle.chain
      · have hacc := accept_chain (chain_shape hidle.chain h) ((incoming_waiting hin).idle hch)
        simpa only [List.nil_append] using hidle.chain.trans hacc

/-- A response leaves a place of a channel. -/
theorem sendBack_chain {m : Nat} {f : Channel → Channel} {p : Place} {access : MemoryAccess}
    (hp : p.memId = some m) (hl : ∀ c, p.Leads (.toCore c) = true) (hlt : access.coreId < s.nCores)
    (hflag : access.request = false)
    (took : ((s.channels m).contents p).Perm (access :: (f (s.channels m)).contents p))
    (other : ∀ x : Place, x ≠ p → x.memId = some m →
      ((f (s.channels m)).contents x).Perm ((s.channels m).contents x)) :
    Chain Rule s ((s.updateChannel m f).sendBack p access).1
      ((s.updateChannel m f).sendBack p access).2 := by
  obtain ⟨hdest, hc⟩ := carried_sendBack hp took other hlt hflag
  unfold sendBack
  rw [hdest]
  exact carry_chain _ _ _ ⟨rfl, rfl, rfl⟩ (hl _) hc
    ((updateChannel_books s m f).trans (icntPush_books _ _ _))
    ⟨fun p => by cases p <;> rfl, .of_cores rfl rfl rfl⟩

theorem drainBypass_chain (h : Shape s) (full : MemoryAccess → Bool) (m : Nat) :
    Chain Rule s (s.drainBypass full m).1 (s.drainBypass full m).2 := by
  unfold drainBypass
  cases hq : (s.channels m).pimBypassQueue with
  | nil => exact .nil s
  | cons e rest =>
      obtain ⟨ready, front⟩ := e
      dsimp only
      split
      · obtain ⟨hlt, hflag⟩ := h (.aauBypass m) front (by simp [contents, Channel.contents, hq])
        refine sendBack_chain rfl (fun _ => rfl) hlt hflag ?_ ?_
        · simp [Channel.contents, hq]
        · intro x hx hm
          cases x <;> simp only [Place.memId, Option.some.injEq, reduceCtorEq] at hm <;>
            subst hm <;> first | exact .refl _ | exact absurd rfl hx
      · exact .nil s

theorem drainSsrcBypass_chain (h : Shape s) (full : MemoryAccess → Bool) (m : Nat) :
    Chain Rule s (s.drainSsrcBypass full m).1 (s.drainSsrcBypass full m).2 := by
  unfold drainSsrcBypass
  cases hq : (s.channels m).pimSsrcBypassQueue with
  | nil => exact .nil s
  | cons e rest =>
      obtain ⟨ready, front⟩ := e
      dsimp only
      split
      · obtain ⟨hlt, hflag⟩ := h (.ssrcBypass m) front (by simp [contents, Channel.contents, hq])
        refine sendBack_chain rfl (fun _ => rfl) hlt hflag ?_ ?_
        · simp [Channel.contents, hq]
        · intro x hx hm
          cases x <;> simp only [Place.memId, Option.some.injEq, reduceCtorEq] at hm <;>
            subst hm <;> first | exact .refl _ | exact absurd rfl hx
      · exact .nil s

theorem dramResponse_chain (h : Shape s) (full : MemoryAccess → Bool) (m : Nat) :
    Chain Rule s (s.dramResponse full m).1 (s.dramResponse full m).2 := by
  unfold dramResponse
  cases hq : (s.channels m).dramResponses with
  | nil => exact .nil s
  | cons front rest =>
      dsimp only
      split
      · exact .nil s
      · obtain ⟨hlt, hflag⟩ := h (.dram m) front (by simp [contents, Channel.contents, hq])
        refine sendBack_chain rfl (fun _ => rfl) hlt hflag ?_ ?_
        · simp only [Channel.contents, hq]
          exact List.perm_middle
        · intro x hx hm
          cases x <;> simp only [Place.memId, Option.some.injEq, reduceCtorEq] at hm <;>
            subst hm <;> first | exact .refl _ | exact absurd rfl hx

theorem coreRequest_chain (h : Shape s) (full : MemoryAccess → Bool) (coreId : Nat) :
    Chain Rule s (s.coreRequest full coreId).1 (s.coreRequest full coreId).2 := by
  unfold coreRequest
  cases hq : (s.cores coreId).requestQueue with
  | nil => exact .nil s
  | cons access rest =>
      obtain ⟨hlt, hcore, hflag⟩ := h (.requestQueue coreId) access (by simp [contents, hq])
      -- the core id is the one the core put there
      have heq : { access with coreId := coreId } = access := by rw [← hcore]
      dsimp only
      rw [heq]
      have hbooks : ∀ (t : Simulator) (q : List MemoryAccess),
          SameBooks t (t.updateCore coreId fun c => { c with requestQueue := q }) := by
        intro t q
        refine ⟨fun c => ?_, fun c => ?_, rfl, rfl⟩ <;>
          (by_cases hc : c = coreId
           · subst hc
             simp [updateCore]
           · simp [updateCore, Function.update_of_ne hc])
      split
      · refine .one (.still (fun p => .of_eq ?_) (hbooks s _))
        cases p with
        | requestQueue c =>
            by_cases hc : c = coreId
            · subst hc
              simp [contents, updateCore, hq]
            · simp [contents, updateCore, Function.update_of_ne hc]
        | _ => rfl
      · have hdest : s.getDestNode access = .memory (s.channelId access.dramAddress) := by
          rw [getDestNode, if_pos hflag]
        rw [hdest]
        refine carry_chain
          ((s.icntPush access (.memory (s.channelId access.dramAddress))).updateCore coreId
            fun c => { c with requestQueue := rest })
          access access ⟨rfl, rfl, rfl⟩ rfl ?_
          ((icntPush_books s access _).trans (hbooks _ _))
          ⟨fun p => by cases p <;> rfl, .of_cores rfl rfl rfl⟩
        exact
          { same := rfl
            ne := by simp [Node.path]
            took := by
              rintro _ ⟨⟩
              simp [contents, updateCore, icntPush, hq]
            put := by
              rintro _ ⟨⟩
              simp only [Node.path, contents, updateCore, icntPush, Function.update_self]
              exact List.perm_append_singleton _ _
            other := fun p hp hp' => by
              cases p with
              | requestQueue c =>
                  have hc : c ≠ coreId := fun heq => hp (by rw [heq])
                  simp [contents, updateCore, icntPush, Function.update_of_ne hc]
              | toMemory m =>
                  have hm : m ≠ s.channelId access.dramAddress := fun heq => hp' (by
                    rw [heq]
                    rfl)
                  simp [contents, updateCore, icntPush, Function.update_of_ne hm]
              | _ => exact .refl _
            fits := by
              rintro _ ⟨⟩
              exact hlt }

theorem coreResponse_chain (coreId : Nat) :
    Chain Rule s (s.coreResponse coreId).1 (s.coreResponse coreId).2 := by
  unfold coreResponse
  cases hq : s.coreOutput coreId with
  | nil => exact .nil s
  | cons response rest =>
      have hqueue : ∀ c : Core, (pushMemoryResponse response c).requestQueue = c.requestQueue := by
        intro c
        unfold pushMemoryResponse
        split <;> rfl
      refine .one (@Rule.absorb _ _ response _ coreId ⟨rfl, rfl, rfl⟩ ?_ ?_ ?_ rfl rfl)
      · exact
          { same := rfl
            ne := by simp
            took := by
              rintro _ ⟨⟩
              simp [contents, hq]
            put := by
              rintro _ ⟨⟩
            other := fun p hp _ => by
              cases p with
              | requestQueue c =>
                  by_cases hc : c = coreId
                  · subst hc
                    simp [contents, updateCore, hqueue _]
                  · simp [contents, updateCore, Function.update_of_ne hc]
              | coreOutput c =>
                  have hc : c ≠ coreId := fun heq => hp (by rw [heq])
                  simp [contents, Function.update_of_ne hc]
              | _ => exact .refl _
            fits := by
              rintro _ ⟨⟩ }
      · intro c hc
        simp [updateCore, Function.update_of_ne hc]
      · simp [updateCore]

/-- **Every part of a cycle is a sequence of rules.** -/
theorem op_chain (h : Shape s) (bp : BackPressure) (o : Op) :
    Chain Rule s (s.op bp o).1 (s.op bp o).2 := by
  cases o with
  | coreRequest coreId => exact coreRequest_chain h _ coreId
  | coreResponse coreId => exact coreResponse_chain coreId
  | noteCandidate memId => exact (notePimCommandCandidate_idle memId s).chain
  | drainHold memId => exact drainHold_chain h _ memId
  | refill memId => exact refill_chain h memId
  | issue memId => exact issue_chain h _ memId
  | drainBypass memId => exact drainBypass_chain h _ memId
  | drainSsrcBypass memId => exact drainSsrcBypass_chain h _ memId
  | dramResponse memId => exact dramResponse_chain h _ memId

/-- So is the cycle, up to every point of it. -/
theorem runOps_chain (bp : BackPressure) (os : List Op) {s : Simulator} :
    Shape s → Chain Rule s (runOps bp os s).1 (runOps bp os s).2 :=
  runOps_of_op composes_chain (fun _ o h => op_chain h bp o) os s

/-! ## 6. The acts -/

/-- A core makes a request. -/
theorem request_rule {coreId : Nat} {access : MemoryAccess} {f : Core → Core}
    (hlt : coreId < s.nCores)
    (hwait : ∀ c, (f c).waitingWriteReqs =
      c.waitingWriteReqs + if access.write = true then 1 else 0)
    (hload : (access.write = true ∧ ∀ c, (f c).loads = c.loads) ∨
      (access.write = false ∧ ∃ slot, ∀ c, (f c).loads = c.loads ++ [(slot, s.memAccessIds)])) :
    Chain Rule s (s.request coreId access f).1 (s.request coreId access f).2 := by
  refine .one (@Rule.make _ _
    { access with id := s.memAccessIds, request := true, coreId := coreId } _ coreId rfl rfl
    ⟨rfl, rfl, rfl⟩ ?_ ?_ rfl rfl ?_ ?_)
  · exact
      { same := rfl
        ne := by simp
        took := by
          rintro _ ⟨⟩
        put := by
          rintro _ ⟨⟩
          simp only [request, contents, updateCore, Function.update_self]
          exact List.perm_append_singleton _ _
        other := fun p _ hp => by
          cases p with
          | requestQueue c =>
              have hc : c ≠ coreId := fun heq => hp (by rw [heq])
              simp [request, contents, updateCore, Function.update_of_ne hc]
          | _ => exact .refl _
        fits := by
          rintro _ ⟨⟩
          exact ⟨hlt, rfl, rfl⟩ }
  · intro c hc
    simp [request, updateCore, Function.update_of_ne hc]
  · simp [request, updateCore, hwait]
  · rcases hload with ⟨hw, hsame⟩ | ⟨hw, slot, hnew⟩
    · exact .inl ⟨hw, by simp [request, updateCore, hsame]⟩
    · exact .inr ⟨hw, slot, by simp [request, updateCore, hnew]⟩

theorem deliver_chain (h : Shape s) {node : Node} {index : Nat} {r : Simulator × List Transfer}
    (hr : s.deliver index node = some r) : Chain Rule s r.1 r.2 := by
  cases node with
  | core coreId =>
      obtain ⟨access, hget, rfl⟩ := Option.map_eq_some_iff.mp hr
      obtain ⟨hi, hval⟩ := List.getElem?_eq_some_iff.mp hget
      have htook := (List.getElem_cons_eraseIdx_perm hi).symm
      rw [hval] at htook
      obtain ⟨hlt, hcore⟩ := h (.toCore coreId) access (List.mem_of_getElem? hget)
      refine carry_chain
        { s with
          toCore := Function.update s.toCore coreId ((s.toCore coreId).eraseIdx index)
          coreOutput := Function.update s.coreOutput coreId (s.coreOutput coreId ++ [access]) }
        access access ⟨rfl, rfl, rfl⟩ (by simp [Place.Leads]) ?_ (.of_cores rfl rfl rfl) (.refl _)
      exact
        { same := rfl
          ne := by simp
          took := by
            rintro _ ⟨⟩
            simp only [contents, Function.update_self]
            exact htook
          put := by
            rintro _ ⟨⟩
            simp only [contents, Function.update_self]
            exact List.perm_append_singleton _ _
          other := fun p hp hp' => by
            cases p with
            | toCore c =>
                have hc : c ≠ coreId := fun heq => hp (by rw [heq])
                simp [contents, Function.update_of_ne hc]
            | coreOutput c =>
                have hc : c ≠ coreId := fun heq => hp' (by rw [heq])
                simp [contents, Function.update_of_ne hc]
            | _ => exact .refl _
          fits := by
            rintro _ ⟨⟩
            exact ⟨hlt, hcore⟩ }
  | memory memId =>
      obtain ⟨access, hget, rfl⟩ := Option.map_eq_some_iff.mp hr
      obtain ⟨hi, hval⟩ := List.getElem?_eq_some_iff.mp hget
      have htook := (List.getElem_cons_eraseIdx_perm hi).symm
      rw [hval] at htook
      have hlt := (h (.toMemory memId) access (List.mem_of_getElem? hget)).lt
      refine carry_chain
        ({ s with
          toMemory := Function.update s.toMemory memId ((s.toMemory memId).eraseIdx index)
          }.updateChannel memId fun ch => { ch with icntOutput := ch.icntOutput ++ [access] })
        access access ⟨rfl, rfl, rfl⟩ (by simp [Place.Leads]) ?_ (.of_cores rfl rfl rfl) (.refl _)
      exact
        { same := rfl
          ne := by simp
          took := by
            rintro _ ⟨⟩
            simp only [contents, updateChannel, Function.update_self]
            exact htook
          put := by
            rintro _ ⟨⟩
            simp only [contents, updateChannel, Function.update_self, Channel.contents]
            exact List.perm_append_singleton _ _
          other := fun p hp hp' => by
            rw [contents_updateChannel]
            split
            · next hm =>
                rw [contents_channel hm]
                cases p <;> simp only [Place.memId, Option.some.injEq, reduceCtorEq] at hm <;>
                  subst hm <;> first | exact .refl _ | exact absurd rfl hp'
            · cases p with
              | toMemory m =>
                  have hm : m ≠ memId := fun heq => hp (by rw [heq])
                  simp [contents, Function.update_of_ne hm]
              | _ => exact .refl _
          fits := by
            rintro _ ⟨⟩
            exact hlt }

theorem answer_chain {memId index : Nat} (hr : s.answer memId index = some s') :
    Chain Rule s s' [] := by
  obtain ⟨access, hget, rfl⟩ := Option.map_eq_some_iff.mp hr
  obtain ⟨hi, hval⟩ := List.getElem?_eq_some_iff.mp hget
  have htook := List.getElem_cons_eraseIdx_perm hi
  rw [hval] at htook
  refine .one (.still (fun p => ?_) (updateChannel_books _ _ _))
  rw [contents_updateChannel]
  split
  · next hm =>
      rw [contents_channel hm]
      cases p with
      | dram m =>
          simp only [Channel.contents, ← List.append_assoc]
          refine (List.perm_append_singleton _ _).trans ?_
          rw [← List.cons_append]
          exact htook.append_right _
      | _ => exact .refl _
  · exact .refl _

/-- **Every act is a sequence of rules.** -/
theorem exec_chain (h : Shape s) {a : MemoryAct} {r : Simulator × List Transfer}
    (hr : s.exec a = some r) : Chain Rule s r.1 r.2 := by
  cases a with
  | load coreId slot access =>
      simp only [exec, Option.ite_none_right_eq_some, Option.some.injEq] at hr
      obtain ⟨hlt, rfl⟩ := hr
      exact request_rule hlt (fun _ => rfl) (.inr ⟨rfl, slot, fun _ => rfl⟩)
  | store coreId access =>
      simp only [exec, Option.ite_none_right_eq_some, Option.some.injEq] at hr
      obtain ⟨hlt, rfl⟩ := hr
      exact request_rule hlt (fun _ => rfl) (.inl ⟨rfl, fun _ => rfl⟩)
  | coreCycle | pimCycle | requestGtsuSwitch | switchAllPimTo | scheduleHold | ssrc =>
      cases hr
      exact Idle.chain ⟨fun p => by cases p <;> rfl, .of_cores rfl rfl rfl⟩
  | deliver node index => exact deliver_chain h hr
  | answer memId index =>
      obtain ⟨t, ht, rfl⟩ := Option.map_eq_some_iff.mp hr
      exact answer_chain ht
  | icntCycle bp =>
      cases hr
      exact runOps_chain bp _ h

end Simulator

end Ahasd
