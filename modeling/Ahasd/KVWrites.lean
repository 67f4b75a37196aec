/-
  File:      Ahasd/KVWrites.lean
  Subject:   THE KEY/VALUE WRITES OF AN INFERENCE (KVCacheConcat.cc, LanguageModel.cc, Core.cc): how
             the request and the task of a model reach its memory accesses.

  * `KVCacheConcat.kvStores`: the tagged stores of the cache operation, request by request;
  * `LanguageModel.annotateSpecTaskType`: the task type goes to every instruction of the model;
  * `Core.storeAccess`: a core copies both into each access of a store;
  * `Model.KvWrite`: the accesses that come of it; `Model.KvWrite.tags`: what they carry.
-/
import Ahasd.LanguageModel
import Ahasd.PIMBackend

namespace Ahasd

/-- `Opcode`, the transfers. -/
inductive Opcode where
  | movin
  | movout
  | movoutPool
  deriving DecidableEq, Repr

/-- `Instruction`, the fields of a transfer. -/
structure Instruction where
  opcode : Opcode
  srcAddrs : List Nat
  baseAddr : Nat
  requestId : Nat := invalidRequestId
  requestIdentityTagged : Bool := false
  specTaskType : Nat := 0
  deriving DecidableEq, Repr

/-- The stores of `KVCacheConcat::initialize_instructions`, for the addresses the tile covers: the
    keys of each request of the batch, then the values. -/
def KVCacheConcat.kvStores (reqs : List LangInput) (keyAddrs valueAddrs : List (List Nat))
    (baseAddr : Nat) : List Instruction :=
  let store := fun (r : LangInput) (addrs : List Nat) =>
    { opcode := .movout
      srcAddrs := addrs
      baseAddr := baseAddr
      requestId := r.requestId
      requestIdentityTagged := true : Instruction }
  List.zipWith store reqs keyAddrs ++ List.zipWith store reqs valueAddrs

/-- `annotate_spec_task_type`: every instruction gets the task type of the first request; those
    without a request get it when it is the only one. -/
def LanguageModel.annotateSpecTaskType : List LangInput → List Instruction → List Instruction
  | [], insts => insts
  | first :: rest, insts =>
      let requestId := if rest.isEmpty then first.requestId else invalidRequestId
      insts.map fun inst =>
        { inst with
          specTaskType := first.specTaskType
          requestId :=
            if requestId ≠ invalidRequestId ∧ inst.requestId = invalidRequestId then requestId
            else inst.requestId }

/-- The access `handle_st_inst_queue` makes of one address of a store. -/
def Core.storeAccess (inst : Instruction) (addr accessId dramReqSize coreId : Nat) : MemoryAccess where
  id := accessId
  dramAddress := addr + inst.baseAddr
  size := dramReqSize
  write := true
  request := true
  coreId := coreId
  requestId := inst.requestId
  requestIdentityTagged := inst.requestIdentityTagged
  specTaskType := inst.specTaskType

/-- **The key/value writes of a model**: its cache stores, annotated, as a core sends them. -/
def Model.KvWrite (m : Model) (access : MemoryAccess) : Prop :=
  ∃ keyAddrs valueAddrs baseAddr, ∃ inst ∈ LanguageModel.annotateSpecTaskType m.reqs
    (KVCacheConcat.kvStores m.reqs keyAddrs valueAddrs baseAddr),
    ∃ addr ∈ inst.srcAddrs, ∃ accessId dramReqSize coreId,
      access = Core.storeAccess inst addr accessId dramReqSize coreId

/-- **What a write of a model for one request carries**: the request and the task of the model. -/
theorem Model.KvWrite.tags {m : Model} {access : MemoryAccess} (h : m.KvWrite access)
    {input : LangInput} (hreqs : m.reqs = [input]) :
    access.write = true ∧ access.requestIdentityTagged = true ∧
      access.requestId = input.requestId ∧ access.specTaskType = input.specTaskType := by
  obtain ⟨keyAddrs, valueAddrs, baseAddr, inst, hinst, addr, _, accessId, size, coreId, rfl⟩ := h
  rw [hreqs] at hinst
  obtain ⟨store, hstore, rfl⟩ := List.mem_map.mp hinst
  have hstores : store.requestId = input.requestId ∧ store.requestIdentityTagged = true := by
    unfold KVCacheConcat.kvStores at hstore
    rcases List.mem_append.mp hstore with hstore | hstore
    · cases keyAddrs with
      | nil => cases hstore
      | cons addrs rest =>
          rw [List.zipWith_cons_cons, List.zipWith_nil_left, List.mem_singleton] at hstore
          rw [hstore]
          exact ⟨rfl, rfl⟩
    · cases valueAddrs with
      | nil => cases hstore
      | cons addrs rest =>
          rw [List.zipWith_cons_cons, List.zipWith_nil_left, List.mem_singleton] at hstore
          rw [hstore]
          exact ⟨rfl, rfl⟩
  refine ⟨rfl, hstores.2, ?_, rfl⟩
  show (if input.requestId ≠ invalidRequestId ∧ store.requestId = invalidRequestId then
    input.requestId else store.requestId) = input.requestId
  split
  · rfl
  · exact hstores.1

end Ahasd
